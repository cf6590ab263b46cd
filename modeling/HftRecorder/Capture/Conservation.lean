import HftRecorder.Capture.Rows

/-!
# What becomes of the calls of the native market capture

Every call is in exactly one place: with the market thread, in the queue, with the storage thread, or
committed, lost, or refused. `NativeLedger` says so for every interleaving, and `NativeLosses` that the
counters of the losses, and at the end of `shutdown` what the sinks were told, are the numbers of lost
events. When `shutdown` returns the threads have nothing, so that every call is accounted for exactly
if nothing is left in the queue. Something can be left: the storage thread looks into the queue first
and at `stopStorage_` afterwards, so an event pushed in between is not seen if `shutdown` then sets
`stopStorage_`.
-/

namespace HftRecorder.Capture

open Corpus NativeState

variable {δ ℓ : Type} {T : NativeTopology} {s t : NativeState δ ℓ}

/-! ## Order -/

/-- The event that is popped and not yet consumed. -/
def StoragePc.unconsumed : StoragePc δ ℓ → Option (NativeEvent δ)
  | .testing e | .consuming e => some e
  | _ => none

/-- The event that is consumed and not yet handed to its sink. -/
def StoragePc.unhanded : StoragePc δ ℓ → Option (NativeEvent δ)
  | .reading e _ | .appending e _ => some e
  | _ => none

/-- Events are pushed, consumed, and handed to the sinks in the order of their calls. -/
structure NativeOrder (s : NativeState δ ℓ) : Prop where
  increasing : (s.pushed.map NativeEvent.call).Pairwise (· < ·)
  made : ∀ e ∈ s.pushed, Made s.calls e
  current : ∀ e, s.market.event = some e → Made s.calls e ∧ ∀ e' ∈ s.pushed, e'.call < e.call
  consumed : (s.consumed ++ s.storage.unconsumed.toList).Sublist (s.pushed.take s.popped)
  handed : (s.handed.map Prod.fst ++ s.storage.unhanded.toList).Sublist s.consumed

theorem nativeOrder_configured (slots : ℕ → NativeEvent δ) (rows : ℕ → ℓ) :
    NativeOrder (.configured slots rows) :=
  ⟨.nil, nofun, nofun, .slnil, .slnil⟩

variable {e : NativeEvent δ}

theorem event_entry {n : ℕ} {c : MarketCall δ ℓ} (h : (entry n c).event = some e) :
    e.call = n ∧ c.sourceId = e.sourceId ∧ c.value = e.value := by
  cases c with
  | onTrade => cases h; exact ⟨rfl, rfl, rfl⟩
  | onBbo => cases h; exact ⟨rfl, rfl, rfl⟩
  | onDepth => cases h; exact ⟨rfl, rfl, rfl⟩

theorem NativeOrder.call (h : NativeOrder s) (c : MarketCall δ ℓ) :
    NativeOrder { s with
      market := entry s.calls.length c
      calls := s.calls ++ [c] } := by
  refine ⟨h.increasing, fun e he => (h.made e he).append c, fun e he => ?_, h.consumed, h.handed⟩
  obtain ⟨hnumber, hsource, hvalue⟩ := event_entry he
  refine ⟨⟨c, ?_, hsource, hvalue⟩, fun e' he' => ?_⟩
  · rw [hnumber]
    exact List.getElem?_concat_length
  · rw [hnumber]
    exact (h.made e' he').call_lt

theorem NativeOrder.stored (h : NativeOrder s) (hq : NativeQueue s) (hm : s.market = .stored e) :
    NativeOrder
      { s with queue := s.queue.publish, pushed := s.pushed ++ [e], market := .idle } := by
  obtain ⟨hmade, hlast⟩ := h.current e (by rw [hm]; rfl)
  refine ⟨?_, ?_, nofun, ?_, h.handed⟩
  · change ((s.pushed ++ [e]).map NativeEvent.call).Pairwise (· < ·)
    rw [List.map_append, List.pairwise_append]
    refine ⟨h.increasing, List.pairwise_singleton _ _, fun n hn m hm => ?_⟩
    obtain ⟨e', he', rfl⟩ := List.mem_map.mp hn
    rw [List.mem_singleton.mp hm]
    exact hlast e' he'
  · intro e' he'
    rcases List.mem_append.mp he' with hbefore | hnew
    · exact h.made e' hbefore
    · rw [List.mem_singleton.mp hnew]
      exact hmade
  · change List.Sublist _ ((s.pushed ++ [e]).take s.popped)
    rw [List.take_append_of_le_length hq.popped_le]
    exact h.consumed

theorem NativeOrder.popped (h : NativeOrder s) (hq : NativeQueue s) (hw : s.storage = .popped e) :
    NativeOrder
      { s with queue := s.queue.advance, popped := s.popped + 1, storage := .testing e } := by
  have hconsumed := h.consumed
  have hhanded := h.handed
  rw [hw] at hconsumed hhanded
  refine ⟨h.increasing, h.made, h.current, ?_, hhanded⟩
  change (s.consumed ++ [e]).Sublist (s.pushed.take (s.popped + 1))
  rw [List.take_add_one, hq.front_eq e (by rw [hw]; rfl)]
  rw [show (StoragePc.popped e : StoragePc δ ℓ).unconsumed.toList = [] from rfl,
    List.append_nil] at hconsumed
  exact hconsumed.append_right [e]

theorem nativeOrder_step (h : NativeStep T s t) (hq : NativeQueue s) (hs : NativeOrder s) :
    NativeOrder t := by
  have hconsumed : s.consumed.Sublist (s.pushed.take s.popped) :=
    (List.sublist_append_left _ _).trans hs.consumed
  have hhanded : (s.handed.map Prod.fst).Sublist s.consumed :=
    (List.sublist_append_left _ _).trans hs.handed
  cases h with
  | call c hm => exact hs.call c
  | stored e hm => exact hs.stored hq hm
  | popped e hw => exact hs.popped hq hw
  | shutdown | giveUp | loseTotal | loseBySource | loseFailed | join | report | reported =>
    exact { hs with current := nofun }
  | test _ _ hm | copy _ _ _ _ hm | copied _ _ hm | publish _ hm | push _ hm | store _ hm =>
    exact { hs with current := fun e he => hs.current e (by rw [hm]; exact he) }
  | place e levels start hm =>
    refine { hs with current := fun e' he' => ?_ }
    cases he'
    exact hs.current e (by rw [hm]; rfl)
  | foundEmpty | found | pop | skip | dropTotal | dropBySource | note | retire | goOn | finish =>
    exact { hs with
      consumed := (List.append_nil _).symm ▸ hconsumed
      handed := (List.append_nil _).symm ▸ hhanded }
  | fail e note | dropFailed e note =>
    cases note <;> exact { hs with
      consumed := (List.append_nil _).symm ▸ hconsumed
      handed := (List.append_nil _).symm ▸ hhanded }
  | consume e hw =>
    have hbefore := hs.consumed
    rw [hw] at hbefore
    exact { hs with consumed := hbefore, handed := (List.append_nil _).symm ▸ hhanded }
  | read e levels hw | readAll e levels hw =>
    have hbefore := hs.handed
    rw [hw] at hbefore
    exact { hs with consumed := (List.append_nil _).symm ▸ hconsumed, handed := hbefore }
  | outside e hw | unrepresentable e detail hw =>
    have hbefore := hs.consumed
    rw [hw] at hbefore
    exact { hs with
      consumed := (List.append_nil _).symm ▸ hbefore
      handed := (List.append_nil _).symm ▸ hhanded.trans (List.sublist_append_left _ _) }
  | represent e hw =>
    have hbefore := hs.consumed
    rw [hw] at hbefore
    exact { hs with
      consumed := (List.append_nil _).symm ▸ hbefore
      handed := hhanded.append_right [e] }
  | commit e levels hw | reject e levels _ hw =>
    have hbefore := hs.handed
    rw [hw] at hbefore
    refine { hs with consumed := (List.append_nil _).symm ▸ hconsumed, handed := ?_ }
    rw [List.map_append]
    exact (List.append_nil _).symm ▸ hbefore

/-! ## The place of every call -/

/-- The call that the market thread has not yet pushed or counted as lost. -/
def MarketPc.pending : MarketPc δ ℓ → Option ℕ
  | .testing e _ | .placing e _ | .copying e _ _ | .publishing e | .pushing e | .storing e
  | .stored e => some e.call
  | .losing n _ .total => some n
  | _ => none

/-- The call that the storage thread has popped and not yet accounted for. -/
def StoragePc.pending : StoragePc δ ℓ → Option ℕ
  | .testing e | .consuming e | .reading e _ | .appending e _ | .losing e .total _ => some e.call
  | _ => none

/-- How often a call is committed, lost, refused, or on the way. -/
def NativeState.places (s : NativeState δ ℓ) (n : ℕ) : ℕ :=
  s.committed.count n + (s.lost.map Prod.fst).count n + s.refused.count n +
    s.storage.pending.toList.count n + ((s.pushed.drop s.popped).map NativeEvent.call).count n +
    s.market.pending.toList.count n

/-- Every call is in one place, and in no other. -/
def InOnePlace (s : NativeState δ ℓ) : Prop :=
  ∀ n, s.places n = if n < s.calls.length then 1 else 0

theorem inOnePlace_configured (slots : ℕ → NativeEvent δ) (rows : ℕ → ℓ) :
    InOnePlace (.configured slots rows) :=
  fun _ => rfl

variable {m : MarketPc δ ℓ}

theorem pending_of_event (h : m.event = some e) : m.pending = some e.call := by
  cases m <;> cases h <;> rfl

theorem pending_entry (n : ℕ) (c : MarketCall δ ℓ) : (entry n c).pending = some n := by
  cases c <;> rfl

/-- Every step leaves each call in one place. -/
theorem inOnePlace_step (h : NativeStep T s t) (hq : NativeQueue s) (hs : InOnePlace s) :
    InOnePlace t := by
  intro n
  have hn := hs n
  cases h with
  | call c hm =>
    simp only [NativeState.places, hm, MarketPc.pending, Option.toList_none, List.count_nil] at hn
    rw [NativeState.places, pending_entry, Option.toList_some, List.count_singleton,
      List.length_append, List.length_singleton]
    simp only [beq_iff_eq]
    split_ifs at hn ⊢ <;> omega
  | shutdown hm | test _ _ hm | place _ _ _ hm | copy _ _ _ _ hm | copied _ _ hm | publish _ hm
  | push _ hm | store _ hm | loseBySource _ _ hm | loseFailed _ _ hm | join hm | report _ _ hm
  | reported _ hm | foundEmpty hm | found hm | pop hm | skip _ hm | consume _ hm
  | unrepresentable _ _ hm | represent _ hm | read _ _ hm | readAll _ _ hm | dropBySource _ _ hm
  | note _ _ hm | retire _ hm | goOn hm | finish hm =>
    -- The call stays where it is.
    rw [NativeState.places, hm] at hn
    exact hn
  | giveUp e hm =>
    rw [NativeState.places, pending_of_event hm] at hn
    exact hn
  | fail e note hw | dropFailed e note hw =>
    rw [NativeState.places, hw] at hn
    cases note <;> exact hn
  | stored e hm =>
    simp only [NativeState.places, hm, MarketPc.pending, Option.toList_none, Option.toList_some,
      List.drop_append_of_le_length hq.popped_le, List.map_append, List.map_singleton,
      List.count_append, List.count_nil] at hn ⊢
    omega
  | popped e hw =>
    obtain ⟨hlt, hget⟩ := List.getElem?_eq_some_iff.mp (hq.front_eq e (by rw [hw]; rfl))
    rw [NativeState.places, hw, List.drop_eq_getElem_cons hlt, hget, List.map_cons,
      ← List.singleton_append, List.count_append] at hn
    simp only [NativeState.places, StoragePc.pending, Option.toList_none, Option.toList_some,
      List.count_nil] at hn ⊢
    omega
  | loseTotal n id hm | outside e hm | reject e _ _ hm | commit e _ hm | dropTotal e note hm =>
    -- The call goes into one of the accounts.
    simp only [NativeState.places, lose, hm, MarketPc.pending, StoragePc.pending,
      Option.toList_none, Option.toList_some, List.map_append, List.map_cons, List.map_nil,
      List.count_append, List.count_nil] at hn ⊢
    omega

/-! ## What the accounts say -/

/-- The storage thread has refused an event and not yet set `failed_`. -/
def StoragePc.isFailing : StoragePc δ ℓ → Bool
  | .failing _ _ => true
  | _ => false

/-- A committed event was handed to its sink, a refused one was consumed, and the refusal is recorded
as a failure with a text. -/
structure NativeRecords (s : NativeState δ ℓ) : Prop where
  committedRows_eq : s.committedRows = s.committed.length
  committed_handed : ∀ n ∈ s.committed, n ∈ s.handed.map fun row => row.1.call
  refused_consumed : ∀ n ∈ s.refused, n ∈ s.consumed.map NativeEvent.call
  recorded : s.refused ≠ [] → s.error ≠ "" ∧ (s.failed = true ∨ s.storage.isFailing = true)

theorem nativeRecords_configured (slots : ℕ → NativeEvent δ) (rows : ℕ → ℓ) :
    NativeRecords (.configured slots rows) :=
  ⟨rfl, nofun, nofun, fun h => absurd rfl h⟩

theorem nativeRecords_step (h : NativeStep T s t) (ho : NativeOrder s) (hs : NativeRecords s) :
    NativeRecords t := by
  have ⟨hrows, hcommitted, hrefused, hrecorded⟩ := hs
  cases h with
  | reject e levels detail hw hdetail =>
    have hconsumed : e ∈ s.consumed := by
      refine ho.handed.subset (List.mem_append_right _ ?_)
      rw [hw]
      exact List.mem_singleton_self e
    constructor <;> grind [StoragePc.isFailing]
  | _ => constructor <;> grind [lose, StoragePc.isFailing]

/-! ## The losses -/

/-- The source of a loss that is counted in total and not yet for its source. -/
def MarketPc.uncounted : MarketPc δ ℓ → Option ℕ
  | .losing _ id .bySource => some id
  | _ => none

def StoragePc.uncounted : StoragePc δ ℓ → Option ℕ
  | .losing e .bySource _ => some e.sourceId
  | _ => none

/-- The number of lost events of a configured source. -/
def lossCount (lost : List (ℕ × ℕ)) (i : ℕ) : ℕ := (lost.map Prod.snd).count (i + 1)

/-- What `shutdown` tells the sink of a source. -/
def lossReport (lost : List (ℕ × ℕ)) (i : ℕ) (object : PublicMarketObject) :
    List (ℕ × String × ℕ) :=
  if lossCount lost i = 0 then [] else [(i, object.name, lossCount lost i)]

def NativeState.reportsOf (s : NativeState δ ℓ) (i : ℕ) : List (ℕ × String × ℕ) :=
  s.captureLosses.filter fun report => report.1 = i

/-- The counters of the losses: those of the sources are what was counted in total, until `shutdown`
reports and clears them one after another. -/
structure NativeLosses (T : NativeTopology) (s : NativeState δ ℓ) : Prop where
  lostEvents_eq : s.lostEvents = s.lost.length
  counted : s.market.joined = false → ∀ i, i < 60 →
    s.lostBySource i + (s.market.uncounted.toList ++ s.storage.uncounted.toList).count (i + 1) =
      lossCount s.lost i
  unreported : s.market.joined = false → s.captureLosses = []
  reporting : ∀ k, s.market = .reporting k → ∀ i object, T.sources[i]? = some object →
    if i < k then s.reportsOf i = lossReport s.lost i object
    else s.reportsOf i = [] ∧ s.lostBySource i = lossCount s.lost i
  returned : s.market = .returned → ∀ i object, T.sources[i]? = some object →
    s.reportsOf i = lossReport s.lost i object

theorem nativeLosses_configured (slots : ℕ → NativeEvent δ) (rows : ℕ → ℓ) :
    NativeLosses T (.configured slots rows) :=
  ⟨rfl, fun _ _ _ => rfl, fun _ => rfl, nofun, nofun⟩

/-- A step before the reports that counts nothing, or finishes the counting of a loss. -/
theorem NativeLosses.congr (h : NativeLosses T s) (hs : s.market.joined = false)
    (ht : t.market.joined = false) (hevents : t.lostEvents = t.lost.length)
    (hcounted : ∀ i, i < 60 →
      t.lostBySource i + (t.market.uncounted.toList ++ t.storage.uncounted.toList).count (i + 1) +
        lossCount s.lost i =
      s.lostBySource i + (s.market.uncounted.toList ++ s.storage.uncounted.toList).count (i + 1) +
        lossCount t.lost i)
    (hreports : t.captureLosses = s.captureLosses) : NativeLosses T t := by
  refine ⟨hevents, fun _ i hi => ?_, fun _ => ?_, fun k hk => ?_, fun hreturned => ?_⟩
  · have hbefore := h.counted hs i hi
    have hstep := hcounted i hi
    omega
  · rw [hreports]
    exact h.unreported hs
  · rw [hk] at ht
    cases ht
  · rw [hreturned] at ht
    cases ht

theorem lossCount_append (lost : List (ℕ × ℕ)) (n id i : ℕ) :
    lossCount (lost ++ [(n, id)]) i = lossCount lost i + [id].count (i + 1) := by
  rw [lossCount, List.map_append, List.count_append]
  rfl

theorem lose_bySource (s : NativeState δ ℓ) (n id : ℕ) {i : ℕ} (hi : i < 60) :
    (s.lose n id .bySource).lostBySource i = s.lostBySource i + [id].count (i + 1) := by
  rw [lose, List.count_singleton]
  simp only [beq_iff_eq]
  by_cases hid : id = i + 1
  · subst hid
    rw [if_pos ⟨Nat.succ_ne_zero i, hi⟩, if_pos rfl, Nat.add_sub_cancel, Function.update_self]
  · rw [if_neg hid]
    split
    · rename_i hsource
      exact Function.update_of_ne (by omega) ..
    · rfl

theorem uncounted_of_event (h : m.event = some e) : m.uncounted = none := by
  cases m <;> first | rfl | cases h

theorem uncounted_entry (n : ℕ) (c : MarketCall δ ℓ) : (entry n c).uncounted = none := by
  cases c <;> rfl

theorem uncounted_noted (e : NativeEvent δ) (note : Option String) :
    (StoragePc.noted e note : StoragePc δ ℓ).uncounted = none := by
  cases note <;> rfl

theorem NativeControl.joined_of_working (h : NativeControl s) (hw : s.storage.isEnded = false) :
    s.market.joined = false := by
  cases hjoined : s.market.joined with
  | false => rfl
  | true =>
    rw [h.ended_of_joined hjoined] at hw
    cases hw

/-- `shutdown` reports the losses of one source. -/
theorem NativeLosses.report (h : NativeLosses T s) {k : ℕ} {object : PublicMarketObject}
    (hm : s.market = .reporting k) (hk : T.sources[k]? = some object) :
    NativeLosses T
      { s with
        lostBySource := Function.update s.lostBySource k 0
        captureLosses :=
          if s.lostBySource k = 0 then s.captureLosses
          else s.captureLosses ++ [(k, object.name, s.lostBySource k)]
        market := .reporting (k + 1) } := by
  have hself := h.reporting k hm k object hk
  rw [if_neg (lt_irrefl k)] at hself
  obtain ⟨hnone, hcount⟩ := hself
  have hreports : ∀ i, (if s.lostBySource k = 0 then s.captureLosses
      else s.captureLosses ++ [(k, object.name, s.lostBySource k)]).filter
        (fun report => report.1 = i) =
      s.reportsOf i ++ if k = i then lossReport s.lost k object else [] := by
    intro i
    rw [lossReport, hcount, reportsOf]
    split
    · rw [ite_self, List.append_nil]
    · rw [List.filter_append]
      by_cases hi : k = i
      · rw [if_pos hi, List.filter_cons_of_pos (by simpa using hi), List.filter_nil]
      · rw [if_neg hi, List.filter_cons_of_neg (by simpa using hi), List.filter_nil]
  refine ⟨h.lostEvents_eq, nofun, nofun, fun k' hk' i object' hi => ?_, nofun⟩
  cases hk'
  have hbefore := h.reporting k hm i object' hi
  rw [reportsOf, hreports]
  rcases Nat.lt_trichotomy i k with hlt | rfl | hgt
  · rw [if_pos hlt] at hbefore
    rw [if_pos (by omega), if_neg (by omega), List.append_nil]
    exact hbefore
  · rw [hk] at hi
    cases hi
    rw [if_pos (Nat.lt_succ_self i), if_pos rfl, hnone, List.nil_append]
  · rw [if_neg (by omega)] at hbefore
    rw [if_neg (by omega), if_neg (by omega), List.append_nil]
    refine ⟨hbefore.1, ?_⟩
    dsimp only
    rw [Function.update_of_ne (by omega)]
    exact hbefore.2

/-- Every step keeps the account of the losses. -/
theorem nativeLosses_step (h : NativeStep T s t) (hc : NativeControl s) (hs : NativeLosses T s) :
    NativeLosses T t := by
  cases h with
  | call c hm =>
    refine hs.congr (by rw [hm]; rfl) (stopping_entry _ c).2 hs.lostEvents_eq (fun i _ => ?_) rfl
    rw [hm, uncounted_entry]
    rfl
  | giveUp e hm =>
    refine hs.congr (stopping_of_event hm).2 rfl hs.lostEvents_eq (fun i _ => ?_) rfl
    rw [uncounted_of_event hm]
    rfl
  | shutdown hm | test _ _ hm | place _ _ _ hm | copy _ _ _ _ hm | copied _ _ hm | publish _ hm
  | push _ hm | store _ hm | stored _ hm | loseFailed _ _ hm =>
    exact hs.congr (by rw [hm]; rfl) rfl hs.lostEvents_eq (fun i _ => by rw [hm]; rfl) rfl
  | loseTotal n id hm =>
    refine hs.congr (by rw [hm]; rfl) rfl ?_ (fun i _ => ?_) rfl
    · simp only [lose, List.length_append, List.length_singleton, hs.lostEvents_eq]
    · simp only [lose, lossCount_append, hm, MarketPc.uncounted, Option.toList_some,
        Option.toList_none, List.count_append, List.count_nil]
      omega
  | loseBySource n id hm =>
    refine hs.congr (by rw [hm]; rfl) rfl hs.lostEvents_eq (fun i hi => ?_) rfl
    rw [lose_bySource s n id hi]
    simp only [lose, hm, MarketPc.uncounted, Option.toList_some, Option.toList_none,
      List.count_append, List.count_nil]
    omega
  | join hm hw =>
    -- From here on the storage thread has ended, and the counters are only read.
    refine ⟨hs.lostEvents_eq, by rintro ⟨⟩, by rintro ⟨⟩, fun k hk i object hi => ?_, by rintro ⟨⟩⟩
    cases hk
    have hlt := (List.getElem?_eq_some_iff.mp hi).1.trans_le T.sources_le
    have hcounted := hs.counted (by rw [hm]; rfl) i hlt
    rw [hm, hw] at hcounted
    rw [if_neg (Nat.not_lt_zero i)]
    refine ⟨?_, hcounted⟩
    change s.captureLosses.filter _ = []
    rw [hs.unreported (by rw [hm]; rfl)]
    rfl
  | report k object hm hk => exact hs.report hm hk
  | reported k hm hk =>
    refine ⟨hs.lostEvents_eq, by rintro ⟨⟩, by rintro ⟨⟩, by rintro _ ⟨⟩, fun _ i object hi => ?_⟩
    have hlt : i < k :=
      (List.getElem?_eq_some_iff.mp hi).1.trans_le (List.getElem?_eq_none_iff.mp hk)
    have hreported := hs.reporting k hm i object hi
    rw [if_pos hlt] at hreported
    exact hreported
  -- A storage thread that works has not been joined.
  | foundEmpty hw | found hw | pop hw | popped _ hw | skip _ hw | consume _ hw | outside _ hw
  | unrepresentable _ _ hw | represent _ hw | read _ _ hw | readAll _ _ hw | commit _ _ hw
  | reject _ _ _ hw | note _ _ hw | retire _ hw | goOn hw | finish hw =>
    have hjoined := hc.joined_of_working (by rw [hw]; rfl)
    exact hs.congr hjoined hjoined hs.lostEvents_eq (fun i _ => by rw [hw]; rfl) rfl
  | fail e note hw | dropFailed e note hw =>
    have hjoined := hc.joined_of_working (by rw [hw]; rfl)
    refine hs.congr hjoined hjoined hs.lostEvents_eq (fun i _ => ?_) rfl
    rw [hw, uncounted_noted]
    rfl
  | dropTotal e note hw =>
    have hjoined := hc.joined_of_working (by rw [hw]; rfl)
    refine hs.congr hjoined hjoined ?_ (fun i _ => ?_) rfl
    · simp only [lose, List.length_append, List.length_singleton, hs.lostEvents_eq]
    · simp only [lose, lossCount_append, hw, StoragePc.uncounted, Option.toList_some,
        Option.toList_none, List.count_append, List.count_nil]
      omega
  | dropBySource e note hw =>
    have hjoined := hc.joined_of_working (by rw [hw]; rfl)
    refine hs.congr hjoined hjoined hs.lostEvents_eq (fun i hi => ?_) rfl
    rw [lose_bySource s e.call e.sourceId hi]
    simp only [lose, hw, StoragePc.uncounted, Option.toList_some, Option.toList_none,
      List.count_append, List.count_nil]
    omega

/-- The call and the source of a loss that the market thread counts. -/
def MarketPc.loss : MarketPc δ ℓ → Option (ℕ × ℕ)
  | .losing n id _ => some (n, id)
  | _ => none

/-- A loss is counted for the source of its call. -/
structure LossesMade (s : NativeState δ ℓ) : Prop where
  lost : ∀ loss ∈ s.lost, ∃ c, s.calls[loss.1]? = some c ∧ c.sourceId = loss.2
  losing : ∀ loss, s.market.loss = some loss → ∃ c, s.calls[loss.1]? = some c ∧ c.sourceId = loss.2

theorem lossesMade_configured (slots : ℕ → NativeEvent δ) (rows : ℕ → ℓ) :
    LossesMade (.configured slots rows) :=
  ⟨nofun, nofun⟩

theorem Made.loss {calls : List (MarketCall δ ℓ)} (h : Made calls e) :
    ∃ c, calls[e.call]? = some c ∧ c.sourceId = e.sourceId := by
  obtain ⟨c, hc, hsource, _⟩ := h
  exact ⟨c, hc, hsource⟩

theorem loss_entry (n : ℕ) (c : MarketCall δ ℓ) : (entry n c).loss = none := by
  cases c <;> rfl

theorem lossesMade_step (h : NativeStep T s t) (hr : NativeRows T s) (ho : NativeOrder s)
    (hs : LossesMade s) : LossesMade t := by
  have ⟨hlost, hlosing⟩ := hs
  cases h with
  | call c hm =>
    have hentry := loss_entry s.calls.length c
    refine ⟨fun loss hloss => ?_, fun loss hloss => by rw [hentry] at hloss; cases hloss⟩
    obtain ⟨c', hc', hsource⟩ := hlost loss hloss
    exact ⟨c', by rw [List.getElem?_append_left (List.getElem?_eq_some_iff.mp hc').1, hc'], hsource⟩
  | giveUp e hm =>
    have hmade := (ho.current e hm).1.loss
    constructor <;> grind [MarketPc.loss]
  | loseTotal n id hm =>
    have hmade := hlosing (n, id) (by rw [hm]; rfl)
    constructor <;> grind [MarketPc.loss, lose]
  | dropTotal e note hw =>
    have hmade := (hr.carries e (mem_inFlight_of_held (by rw [hw]; rfl))).made.loss
    constructor <;> grind [lose]
  | _ => constructor <;> grind [MarketPc.loss, lose]

/-! ## Every run -/

/-- The invariants of the handoff. -/
structure NativeInvariant (T : NativeTopology) (s : NativeState δ ℓ) : Prop where
  control : NativeControl s
  queue : NativeQueue s
  rows : NativeRows T s
  order : NativeOrder s
  places : InOnePlace s
  records : NativeRecords s
  losses : NativeLosses T s
  lossesMade : LossesMade s

theorem nativeInvariant_configured (slots : ℕ → NativeEvent δ) (rows : ℕ → ℓ) :
    NativeInvariant T (.configured slots rows) :=
  ⟨nativeControl_configured slots rows, nativeQueue_configured slots rows,
    nativeRows_configured slots rows, nativeOrder_configured slots rows,
    inOnePlace_configured slots rows, nativeRecords_configured slots rows,
    nativeLosses_configured slots rows, lossesMade_configured slots rows⟩

theorem nativeInvariant_step (h : NativeStep T s t) (hs : NativeInvariant T s) :
    NativeInvariant T t :=
  ⟨nativeControl_step h hs.control, nativeQueue_step h hs.queue, nativeRows_step h hs.queue hs.rows,
    nativeOrder_step h hs.queue hs.order, inOnePlace_step h hs.queue hs.places,
    nativeRecords_step h hs.order hs.records, nativeLosses_step h hs.control hs.losses,
    lossesMade_step h hs.rows hs.order hs.lossesMade⟩

/-- Events are consumed in the order of their calls and at most once, as the events of their calls,
and the row of an event has the levels of its call. -/
structure ConsumedInOrder (s : NativeState δ ℓ) : Prop where
  increasing : (s.consumed.map NativeEvent.call).Pairwise (· < ·)
  made : ∀ e ∈ s.consumed, Made s.calls e
  levels_eq : ∀ row ∈ s.handed, row.1 ∈ s.consumed ∧ row.2 = callLevels s.calls row.1.call

/-- The three accounts: no call is in two of them, the counters are their sizes, a committed event was
handed to its sink, a loss is that of its source, a refused event was consumed and its refusal is
recorded, and the sink of each source was told the number of its losses. -/
structure AccountsKept (T : NativeTopology) (s : NativeState δ ℓ) : Prop where
  nodup : (s.committed ++ s.lost.map Prod.fst ++ s.refused).Nodup
  committedRows_eq : s.committedRows = s.committed.length
  lostEvents_eq : s.lostEvents = s.lost.length
  committed_handed : ∀ n ∈ s.committed, n ∈ s.handed.map fun row => row.1.call
  lost_made : ∀ loss ∈ s.lost, ∃ c, s.calls[loss.1]? = some c ∧ c.sourceId = loss.2
  refused_consumed : ∀ n ∈ s.refused, n ∈ s.consumed.map NativeEvent.call
  recorded : s.refused ≠ [] → s.error ≠ "" ∧ s.failed = true
  reported : ∀ i object, T.sources[i]? = some object →
    s.reportsOf i = lossReport s.lost i object

/-- Every call was committed, counted as lost, or refused. -/
def AllAccounted (s : NativeState δ ℓ) : Prop :=
  ∀ n, n < s.calls.length → n ∈ s.committed ∨ n ∈ s.lost.map Prod.fst ∨ n ∈ s.refused

/-- The storage thread has found the queue empty, has not yet looked at `stopStorage_`, and there is
an event in the queue. -/
def Overlooked (s : NativeState δ ℓ) : Prop := s.storage = .loadStop ∧ s.queue.empty = false

theorem NativeControl.ended_of_returned (h : NativeControl s) (hm : s.market = .returned) :
    s.storage = .ended := by
  have hended := h.ended_of_joined (by rw [hm]; rfl)
  generalize s.storage = w at hended
  cases w with
  | ended => rfl
  | _ => cases hended

theorem NativeInvariant.consumedInOrder (h : NativeInvariant T s) : ConsumedInOrder s := by
  have hsublist : s.consumed.Sublist s.pushed :=
    ((List.sublist_append_left _ _).trans h.order.consumed).trans (List.take_sublist _ _)
  refine ⟨h.order.increasing.sublist (hsublist.map _),
    fun e he => h.order.made e (hsublist.subset he), fun row hrow => ⟨?_, (h.rows.handed row hrow).2⟩⟩
  exact h.order.handed.subset (List.mem_append_left _ (List.mem_map_of_mem hrow))

theorem NativeInvariant.count_returned (h : NativeInvariant T s) (hm : s.market = .returned)
    (n : ℕ) : (s.committed ++ s.lost.map Prod.fst ++ s.refused).count n +
      ((s.pushed.drop s.popped).map NativeEvent.call).count n =
      if n < s.calls.length then 1 else 0 := by
  have hplaces := h.places n
  rw [NativeState.places, h.control.ended_of_returned hm, hm] at hplaces
  rw [List.count_append, List.count_append]
  exact hplaces

theorem NativeInvariant.accountsKept (h : NativeInvariant T s) (hm : s.market = .returned) :
    AccountsKept T s := by
  refine ⟨?_, h.records.committedRows_eq, h.losses.lostEvents_eq, h.records.committed_handed,
    h.lossesMade.lost, h.records.refused_consumed, fun hne => ?_, h.losses.returned hm⟩
  · rw [List.nodup_iff_count_le_one]
    intro n
    have hcount := h.count_returned hm n
    split at hcount <;> omega
  · obtain ⟨herror, hfailed⟩ := h.records.recorded hne
    rw [h.control.ended_of_returned hm] at hfailed
    exact ⟨herror, hfailed.resolve_right nofun⟩

/-- When `shutdown` has returned, all calls are accounted for if nothing is left in the queue, and
only then. -/
theorem NativeInvariant.allAccounted_iff (h : NativeInvariant T s) (hm : s.market = .returned) :
    AllAccounted s ↔ s.popped = s.pushed.length := by
  have hmem : ∀ n, (n ∈ s.committed ∨ n ∈ s.lost.map Prod.fst ∨ n ∈ s.refused) ↔
      0 < (s.committed ++ s.lost.map Prod.fst ++ s.refused).count n := by
    intro n
    rw [List.count_pos_iff, List.mem_append, List.mem_append, or_assoc]
  constructor
  · intro hall
    refine le_antisymm h.queue.popped_le (not_lt.mp fun hlt => ?_)
    -- The next event of the queue is in no account.
    have hget : s.pushed[s.popped]? = some s.pushed[s.popped] := List.getElem?_eq_getElem hlt
    have hcall := (h.order.made _ (List.getElem_mem hlt)).call_lt
    have hcount := h.count_returned hm s.pushed[s.popped].call
    have haccount := (hmem _).mp (hall _ hcall)
    rw [if_pos hcall, List.drop_eq_getElem_cons hlt, List.map_cons, List.count_cons_self] at hcount
    omega
  · intro hempty n hn
    have hcount := h.count_returned hm n
    rw [if_pos hn, hempty, List.drop_length] at hcount
    rw [hmem, show (s.committed ++ s.lost.map Prod.fst ++ s.refused).count n = 1 from hcount]
    exact Nat.one_pos

/-- A storage thread that has overlooked an event when `shutdown` sets `stopStorage_` leaves it in the
queue. -/
theorem popped_ne_of_overlooked {after : List (NativeAction δ ℓ)} (hi : NativeInvariant T t)
    (hm : t.market = .idle) (ht : Overlooked t) (hafter : Machine.run (step T)
      { t with stopStorage := true, market := .joining } after = some s) :
    s.popped ≠ s.pushed.length := by
  obtain ⟨hw, hempty⟩ := ht
  have hkept := native_invariant
    (P := fun u => NativeInvariant T u ∧ u.stopStorage = true ∧ u.storage.leaving = true ∧
      u.popped = t.popped ∧ u.pushed = t.pushed)
    (fun u v huv ⟨hu, hstop, hleaving, hpopped, hpushed⟩ => by
      obtain ⟨hstop', hpushed', hleaves, hkeeps⟩ := stopped_step huv hu.control hstop
      have hleaving' := hleaves hleaving
      exact ⟨nativeInvariant_step huv hu, hstop', hleaving', (hkeeps hleaving').1.trans hpopped,
        hpushed'.trans hpushed⟩)
    hafter ⟨nativeInvariant_step (.shutdown hm) hi, rfl, by rw [hw]; rfl, rfl, rfl⟩
  obtain ⟨_, _, _, hpopped, hpushed⟩ := hkept
  rw [hpopped, hpushed]
  intro heq
  rw [hi.queue.tracks.empty_iff.mpr heq] at hempty
  cases hempty

/-- Otherwise the storage thread ends with an empty queue. -/
theorem popped_eq_of_not_overlooked {after : List (NativeAction δ ℓ)} (hi : NativeInvariant T t)
    (hm : t.market = .idle) (ht : ¬ Overlooked t) (hafter : Machine.run (step T)
      { t with stopStorage := true, market := .joining } after = some s)
    (hreturned : s.market = .returned) : s.popped = s.pushed.length := by
  have hdrained : Drained { t with stopStorage := true, market := .joining } := by
    intro _ hleaving
    change t.storage.leaving = true at hleaving
    change t.popped = t.pushed.length
    cases hw : t.storage with
    | loadStop =>
      refine hi.queue.tracks.empty_iff.mp ?_
      by_contra hempty
      exact ht ⟨hw, Bool.not_eq_true _ ▸ hempty⟩
    | ended =>
      -- The storage thread does not end before `stopStorage_` is set.
      have hstop := hi.control.stop_of_ended (by rw [hw]; rfl)
      rw [hi.control.stop_eq, hm] at hstop
      cases hstop
    | _ =>
      rw [hw] at hleaving
      cases hleaving
  have hkept := native_invariant
    (P := fun u => NativeInvariant T u ∧ u.stopStorage = true ∧ Drained u)
    (fun u v huv ⟨hu, hstop, hdrained⟩ =>
      ⟨nativeInvariant_step huv hu, drained_step huv hu.control hu.queue hstop hdrained⟩)
    hafter ⟨nativeInvariant_step (.shutdown hm) hi, rfl, hdrained⟩
  obtain ⟨hs, hstop, hdrained⟩ := hkept
  exact hdrained hstop (by rw [hs.control.ended_of_returned hreturned]; rfl)

/-! ## The handoff -/

/-- In every interleaving events are consumed in the order of their calls, at most once, and with
their levels. When `shutdown` has returned, the accounts are right, and every call is in one of them
exactly if the storage thread had overlooked no event when `shutdown` set `stopStorage_`. -/
theorem native_handoff_conserved_iff (T : NativeTopology) (slots : ℕ → NativeEvent δ)
    (rows : ℕ → ℓ) :
    (∀ (actions : List (NativeAction δ ℓ)) (v : NativeState δ ℓ),
      Machine.run (NativeState.step T) (.configured slots rows) actions = some v →
      ConsumedInOrder v) ∧
    (∀ (before after : List (NativeAction δ ℓ)) (t u s : NativeState δ ℓ),
      Machine.run (NativeState.step T) (.configured slots rows) before = some t →
      t.step T .shutdown = some u →
      Machine.run (NativeState.step T) u after = some s → s.market = .returned →
      AccountsKept T s ∧ (AllAccounted s ↔ ¬ Overlooked t)) := by
  have hrun : ∀ {v w : NativeState δ ℓ} {actions : List (NativeAction δ ℓ)},
      Machine.run (step T) v actions = some w → NativeInvariant T v →
      NativeInvariant T w :=
    native_invariant fun _ _ h hs => nativeInvariant_step h hs
  have hstart := nativeInvariant_configured (T := T) slots rows
  refine ⟨fun actions v hv => (hrun hv hstart).consumedInOrder, ?_⟩
  intro before after t u s hbefore hshutdown hafter hreturned
  have ht := hrun hbefore hstart
  have hs := hrun hafter (nativeInvariant_step (nativeStep_of_step hshutdown) ht)
  refine ⟨hs.accountsKept hreturned, ?_⟩
  rw [hs.allAccounted_iff hreturned]
  simp only [step] at hshutdown
  split at hshutdown
  · rename_i hm
    cases hshutdown
    constructor
    · intro heq hover
      exact popped_ne_of_overlooked ht hm hover hafter heq
    · intro hover
      exact popped_eq_of_not_overlooked ht hm hover hafter hreturned
  · cases hshutdown

/-- One source of depth events, with an arena of four rows. -/
def oneDepthSource : NativeTopology where
  sources := [.depth]
  rowCapacity := 4
  sources_ne := nofun
  sources_le := by decide
  rowCapacity_le := by decide

/-- A depth event with two levels is pushed, and the storage thread commits it and finds the queue
empty. -/
def committedDepth : List (NativeAction Unit ℕ) :=
  .call (.onDepth 1 true true () (.given [5, 6])) ::
    (List.replicate 9 .market ++ List.replicate 11 (.storage true ""))

/-- The storage thread sees `stopStorage_`, and `shutdown` joins it and reports. -/
def shutdownReturns : List (NativeAction Unit ℕ) :=
  [.storage true "", .market, .market, .market]

/-- The slots and the rows before anything is stored there. -/
def blankCapture : NativeState Unit ℕ :=
  .configured (fun _ => ⟨0, 0, .bookTicker (), 0, 0, 0⟩) fun _ => 0

/-- `shutdown` has returned. -/
def MarketPc.isReturned : MarketPc δ ℓ → Bool
  | .returned => true
  | _ => false

theorem eq_returned_of_isReturned (h : m.isReturned = true) : m = .returned := by
  cases m with
  | returned => rfl
  | _ => cases h

/-- The whole run: whether the queue is empty when `stopStorage_` is set, whether `shutdown` returns,
and the levels that the sink was handed. -/
theorem committedDepth_run :
    ((Machine.run (step oneDepthSource) blankCapture committedDepth).bind fun t =>
      (t.step oneDepthSource .shutdown).bind fun u =>
        (Machine.run (step oneDepthSource) u shutdownReturns).map fun s =>
          (t.queue.empty, s.market.isReturned, s.handed.map Prod.snd)) =
      some (true, true, [[5, 6]]) := by
  decide +kernel

theorem native_handoff_conserved_iff_committed :
    ∃ t u s : NativeState Unit ℕ,
      Machine.run (NativeState.step oneDepthSource) blankCapture committedDepth = some t ∧
      t.step oneDepthSource .shutdown = some u ∧
      Machine.run (NativeState.step oneDepthSource) u shutdownReturns = some s ∧
      s.market = .returned ∧ ¬ Overlooked t ∧ s.handed.map Prod.snd = [[5, 6]] ∧
      ConsumedInOrder t ∧ AccountsKept oneDepthSource s ∧ AllAccounted s := by
  obtain ⟨t, ht, hrest⟩ := Option.bind_eq_some_iff.mp committedDepth_run
  obtain ⟨u, hu, hrest⟩ := Option.bind_eq_some_iff.mp hrest
  obtain ⟨s, hs, heq⟩ := Option.map_eq_some_iff.mp hrest
  obtain ⟨hempty, hreturned, hlevels⟩ : t.queue.empty = true ∧ s.market.isReturned = true ∧
      s.handed.map Prod.snd = [[5, 6]] := by
    simpa only [Prod.mk.injEq] using heq
  have hmarket := eq_returned_of_isReturned hreturned
  have hover : ¬ Overlooked t := fun h => Bool.noConfusion (hempty.symm.trans h.2)
  obtain ⟨hordered, hsettled⟩ := native_handoff_conserved_iff (δ := Unit) (ℓ := ℕ) oneDepthSource
    (fun _ => ⟨0, 0, .bookTicker (), 0, 0, 0⟩) fun _ => 0
  obtain ⟨hkept, hall⟩ := hsettled committedDepth shutdownReturns t u s ht hu hs hmarket
  exact ⟨t, u, s, ht, hu, hs, hmarket, hover, hlevels, hordered committedDepth t ht, hkept,
    hall.mpr hover⟩

/-- The storage thread finds the queue empty, and then a trade is pushed. -/
def lateTrade : List (NativeAction Unit ℕ) :=
  [.storage true "", .call (.onTrade 1 false ()), .market, .market, .market, .market]

/-- A trade pushed just before `shutdown` is neither committed nor lost nor refused. -/
theorem late_trade_unaccounted :
    ∃ t u s : NativeState Unit ℕ,
      Machine.run (NativeState.step oneDepthSource) blankCapture lateTrade = some t ∧
      t.step oneDepthSource .shutdown = some u ∧
      Machine.run (NativeState.step oneDepthSource) u shutdownReturns = some s ∧
      s.market = .returned ∧ s.calls.length = 1 ∧ s.committed = [] ∧ s.lost = [] ∧ s.refused = [] ∧
      s.lostEvents = 0 ∧ s.failed = false ∧ s.captureLosses = [] ∧ ¬ AllAccounted s := by
  refine ⟨_, _, _, rfl, rfl, rfl, rfl, rfl, rfl, rfl, rfl, rfl, rfl, rfl, fun h => ?_⟩
  rcases h 0 Nat.one_pos with h | h | h <;> cases h

end HftRecorder.Capture
