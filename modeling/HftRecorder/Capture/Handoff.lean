import HftRecorder.Capture.NativeStep

/-!
# The queue of the native market capture

Invariants of every interleaving of the market thread and the storage thread. `NativeControl` says
which parts of `shutdown` and of the storage thread's loop exclude each other, and `NativeQueue` that
the ring has what was pushed and not yet popped. `Drained` is what `shutdown` needs from the storage
thread: nothing is left in the queue when it has ended.
-/

namespace HftRecorder.Capture

open Corpus NativeState

variable {δ ℓ : Type} {T : NativeTopology} {s t : NativeState δ ℓ}

theorem native_invariant {P : NativeState δ ℓ → Prop} (hstep : ∀ s t, NativeStep T s t → P s → P t)
    {actions : List (NativeAction δ ℓ)}
    (h : Machine.run (step T) s actions = some t) (hs : P s) : P t :=
  Machine.run_invariant (fun s _ t hst hP => hstep s t (nativeStep_of_step hst) hP) h hs

/-! ## Control -/

/-- `shutdown` has set `stopStorage_`. -/
def MarketPc.stopping : MarketPc δ ℓ → Bool
  | .joining | .reporting _ | .returned => true
  | _ => false

/-- `shutdown` has joined the storage thread. -/
def MarketPc.joined : MarketPc δ ℓ → Bool
  | .reporting _ | .returned => true
  | _ => false

def StoragePc.isEnded : StoragePc δ ℓ → Bool
  | .ended => true
  | _ => false

/-- The order of `shutdown` and the end of the storage thread. -/
structure NativeControl (s : NativeState δ ℓ) : Prop where
  stop_eq : s.stopStorage = s.market.stopping
  stop_of_ended : s.storage.isEnded = true → s.stopStorage = true
  ended_of_joined : s.market.joined = true → s.storage.isEnded = true

theorem nativeControl_configured (slots : ℕ → NativeEvent δ) (rows : ℕ → ℓ) :
    NativeControl (.configured slots rows) :=
  ⟨rfl, nofun, nofun⟩

theorem stopping_of_event {m : MarketPc δ ℓ} {e : NativeEvent δ} (h : m.event = some e) :
    m.stopping = false ∧ m.joined = false := by
  cases m <;> first | exact ⟨rfl, rfl⟩ | cases h

theorem stopping_entry (n : ℕ) (c : MarketCall δ ℓ) :
    (entry n c).stopping = false ∧ (entry n c).joined = false := by
  cases c <;> exact ⟨rfl, rfl⟩

/-- A step between two operations of one thread. -/
theorem NativeControl.congr (h : NativeControl s) (hstop : t.stopStorage = s.stopStorage)
    (hstopping : t.market.stopping = s.market.stopping)
    (hjoined : t.market.joined = s.market.joined)
    (hended : t.storage.isEnded = s.storage.isEnded) : NativeControl t := by
  have ⟨h1, h2, h3⟩ := h
  rw [← hstop, ← hstopping] at h1
  rw [← hstop, ← hended] at h2
  rw [← hjoined, ← hended] at h3
  exact ⟨h1, h2, h3⟩

theorem nativeControl_step (h : NativeStep T s t) (hs : NativeControl s) : NativeControl t := by
  cases h with
  | call c hm =>
    have hentry := stopping_entry s.calls.length c
    exact hs.congr rfl (by rw [hm]; exact hentry.1) (by rw [hm]; exact hentry.2) rfl
  | giveUp e hm =>
    have hevent := stopping_of_event hm
    exact hs.congr rfl hevent.1.symm hevent.2.symm rfl
  | test _ _ hm | place _ _ _ hm | copy _ _ _ _ hm | copied _ _ hm | publish _ hm | push _ hm
  | store _ hm | stored _ hm | loseTotal _ _ hm | loseBySource _ _ hm | loseFailed _ _ hm
  | report _ _ hm | reported _ hm =>
    exact hs.congr rfl (by rw [hm]; rfl) (by rw [hm]; rfl) rfl
  | fail e note hw | dropFailed e note hw =>
    exact hs.congr rfl rfl rfl (by rw [hw]; cases note <;> rfl)
  | shutdown hm => exact ⟨rfl, fun _ => rfl, nofun⟩
  | join hm hw =>
    have hstop := hs.stop_eq
    rw [hm] at hstop
    exact ⟨hstop, fun _ => hstop, fun _ => by rw [hw]; rfl⟩
  | finish hw hstop => exact ⟨hs.stop_eq, fun _ => hstop, fun _ => rfl⟩
  | _ => exact hs.congr rfl rfl rfl (by rw [‹s.storage = _›]; rfl)

/-! ## The queue -/

/-- The ring with counters that `queue_` is. -/
def NativeState.slotRing (s : NativeState δ ℓ) : SlotRing (NativeEvent δ) where
  capacity := 2 ^ 7
  slots := s.queue.slots
  written := s.pushed.length
  read := s.popped

/-- The event that the market thread is about to store into the free slot, or has stored there. -/
def MarketPc.slot : MarketPc δ ℓ → Option (NativeEvent δ × Bool)
  | .storing e => some (e, false)
  | .stored e => some (e, true)
  | _ => none

/-- The storage thread has found an event, and then has it. -/
def StoragePc.found : StoragePc δ ℓ → Option (Option (NativeEvent δ))
  | .popping => some none
  | .popped e => some (some e)
  | _ => none

/-- The ring has what was pushed and not popped, and each thread's view of it is still right when it
acts on it. -/
structure NativeQueue (s : NativeState δ ℓ) : Prop where
  tracks : s.queue.Tracks s.slotRing
  holds : s.slotRing.Holds s.pushed
  room : ∀ e stored, s.market.slot = some (e, stored) → s.pushed.length + 1 < s.popped + 2 ^ 7
  slot_eq : ∀ e, s.market.slot = some (e, true) → s.slotRing.item s.pushed.length = e
  popped_lt : ∀ e, s.storage.found = some e → s.popped < s.pushed.length
  front_eq : ∀ e, s.storage.found = some (some e) → s.pushed[s.popped]? = some e

theorem nativeQueue_configured (slots : ℕ → NativeEvent δ) (rows : ℕ → ℓ) :
    NativeQueue (.configured slots rows) :=
  ⟨SpscRing.tracks_empty 7 slots, SlotRing.holds_empty _ slots, nofun, nofun, nofun, nofun⟩

theorem NativeQueue.popped_le (h : NativeQueue s) : s.popped ≤ s.pushed.length := h.holds.read_le

theorem slot_entry (n : ℕ) (c : MarketCall δ ℓ) : (entry n c).slot = none := by
  cases c <;> rfl

theorem NativeQueue.store (h : NativeQueue s) {e : NativeEvent δ} (hm : s.market = .storing e) :
    NativeQueue { s with queue := s.queue.store e, market := .stored e } := by
  have hroom := h.room e false (by rw [hm]; rfl)
  have hring : slotRing { s with queue := s.queue.store e, market := .stored e } =
      s.slotRing.store e :=
    congrArg (fun slots => { s.slotRing with slots }) (h.tracks.store e).slots_eq.symm
  refine ⟨?_, ?_, fun _ _ _ => hroom, ?_, h.popped_lt, h.front_eq⟩
  · rw [hring]
    exact h.tracks.store e
  · rw [hring]
    exact h.holds.store (show s.pushed.length < s.popped + 2 ^ 7 by omega) e
  · intro e' he'
    cases he'
    rw [hring]
    exact SlotRing.item_store_written s.slotRing e

theorem NativeQueue.stored (h : NativeQueue s) {e : NativeEvent δ} (hm : s.market = .stored e) :
    NativeQueue { s with queue := s.queue.publish, pushed := s.pushed ++ [e], market := .idle } := by
  have hroom := h.room e true (by rw [hm]; rfl)
  have hring : slotRing
      { s with queue := s.queue.publish, pushed := s.pushed ++ [e], market := .idle } =
      s.slotRing.publish := by
    simp only [slotRing, SlotRing.publish, SpscRing.publish, List.length_append,
      List.length_singleton]
  refine ⟨?_, ?_, nofun, nofun, ?_, ?_⟩
  · rw [hring]
    exact h.tracks.publish hroom
  · rw [hring]
    exact h.holds.publish (show s.pushed.length < s.popped + 2 ^ 7 by omega)
      (h.slot_eq e (by rw [hm]; rfl))
  · intro e' he'
    have := h.popped_lt e' he'
    rw [List.length_append]
    exact this.trans_le (Nat.le_add_right _ _)
  · intro e' he'
    have hlt := h.popped_lt (some e') he'
    change (s.pushed ++ [e])[s.popped]? = some e'
    rw [List.getElem?_append_left hlt]
    exact h.front_eq e' he'

theorem NativeQueue.advance (h : NativeQueue s) {e : NativeEvent δ} (hw : s.storage = .popped e) :
    NativeQueue
      { s with queue := s.queue.advance, popped := s.popped + 1, storage := .testing e } := by
  have hlt := h.popped_lt (some e) (by rw [hw]; rfl)
  refine ⟨h.tracks.advance hlt, h.holds.advance hlt, ?_, h.slot_eq, nofun, nofun⟩
  intro e' stored he'
  have := h.room e' stored he'
  change s.pushed.length + 1 < s.popped + 1 + 2 ^ 7
  omega

theorem nativeQueue_step (h : NativeStep T s t) (hs : NativeQueue s) : NativeQueue t := by
  cases h with
  | call c =>
    have hslot := slot_entry s.calls.length c
    exact { hs with
      room := fun e stored he => by rw [hslot] at he; cases he
      slot_eq := fun e he => by rw [hslot] at he; cases he }
  | shutdown | giveUp | test | place | copy | copied | publish | loseTotal | loseBySource | loseFailed
  | join | report | reported =>
    exact { hs with room := nofun, slot_eq := nofun }
  | push e hm hfull =>
    exact { hs with room := fun _ _ _ => hs.tracks.room hfull, slot_eq := nofun }
  | store e hm => exact hs.store hm
  | stored e hm => exact hs.stored hm
  | foundEmpty | skip | consume | outside | unrepresentable | represent | read | readAll | commit
  | reject | dropTotal | dropBySource | note | retire | goOn | finish =>
    exact { hs with popped_lt := nofun, front_eq := nofun }
  | fail e note | dropFailed e note =>
    cases note <;> exact { hs with popped_lt := nofun, front_eq := nofun }
  | found hw hempty =>
    have hne : s.popped ≠ s.pushed.length := fun heq => by
      rw [hs.tracks.empty_iff.mpr heq] at hempty
      cases hempty
    exact { hs with popped_lt := fun _ _ => lt_of_le_of_ne hs.popped_le hne, front_eq := nofun }
  | pop hw =>
    have hlt := hs.popped_lt none (by rw [hw]; rfl)
    refine { hs with popped_lt := fun _ _ => hlt, front_eq := fun e he => ?_ }
    cases he
    rw [hs.tracks.front_eq]
    exact hs.holds.item_eq le_rfl hlt
  | popped e hw => exact hs.advance hw

/-! ## What is left in the queue -/

/-- The storage thread is about to look at `stopStorage_`, or has ended. -/
def StoragePc.leaving : StoragePc δ ℓ → Bool
  | .loadStop | .ended => true
  | _ => false

/-- Once `stopStorage_` is set, the storage thread leaves only with an empty queue. -/
def Drained (s : NativeState δ ℓ) : Prop :=
  s.stopStorage = true → s.storage.leaving = true → s.popped = s.pushed.length

/-- After `shutdown` has begun, nothing is pushed any more, and a storage thread that leaves does not
come back to the queue. It starts to leave where the queue is empty. -/
theorem stopped_step (h : NativeStep T s t) (hc : NativeControl s) (hstop : s.stopStorage = true) :
    t.stopStorage = true ∧ t.pushed = s.pushed ∧
      (s.storage.leaving = true → t.storage.leaving = true) ∧
      (t.storage.leaving = true → t.popped = s.popped ∧
        (s.storage.leaving = true ∨ s.queue.empty = true)) := by
  have hstopping : s.market.stopping = true := hc.stop_eq ▸ hstop
  cases h with
  | giveUp e hm =>
    rw [(stopping_of_event hm).1] at hstopping
    cases hstopping
  | fail e note | dropFailed e note =>
    cases note <;> grind [StoragePc.noted, StoragePc.leaving, lose]
  | _ => grind [MarketPc.stopping, StoragePc.leaving, lose]

theorem drained_step (h : NativeStep T s t) (hc : NativeControl s) (hq : NativeQueue s)
    (hstop : s.stopStorage = true) (hs : Drained s) : t.stopStorage = true ∧ Drained t := by
  obtain ⟨hstop', hpushed, -, hleaving⟩ := stopped_step h hc hstop
  refine ⟨hstop', fun _ hleft => ?_⟩
  obtain ⟨hpopped, hbefore | hempty⟩ := hleaving hleft
  · rw [hpopped, hpushed, hs hstop hbefore]
  · rw [hpopped, hpushed]
    exact hq.tracks.empty_iff.mp hempty

end HftRecorder.Capture
