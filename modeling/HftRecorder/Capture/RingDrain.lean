import Mathlib.Data.List.Induction
import HftRecorder.Capture.ParserClient
import HftRecorder.Writer.Run

/-!
# Draining the rings exactly once

Whatever the sinks return and whenever the producer publishes, the records of a shard are delivered in
the order in which they were published, each of them at most once. `RingDrain` is the invariant: every
call of the sink for records is for the first record of its shard that the sink has not yet taken, and
a ring's `read` is the number of records that the sink has taken from it, but for the moment between
the sink's `Ok` and the store.
-/

namespace HftRecorder.Capture

open ByteLayout Corpus ClientState

variable {π σ : Type} {P : ParserProtocol π σ} {L : LossProtocol} {X : Platform} {A : ArenaShape}
  {s t : ClientState π σ} {published : ℕ → List (MarketCaptureRecord π)} {log : List (SinkCall π σ)}
  {call : ClientCall} {drained shard : ℕ} {record : MarketCaptureRecord π}

/-! ## Deliveries -/

/-- The record that a call of a sink delivers from a shard. -/
def SinkCall.delivery (k : ℕ) : SinkCall π σ → Option (Handed π σ)
  | .record h .ok => if h.shard = k then some h else none
  | _ => none

def SinkCall.isRecord : SinkCall π σ → Bool
  | .record _ _ => true
  | _ => false

/-- The records that the sink has taken from a shard. -/
def deliveries (log : List (SinkCall π σ)) (k : ℕ) : List (Handed π σ) :=
  log.filterMap (SinkCall.delivery k)

theorem deliveries_append (log : List (SinkCall π σ)) (c : SinkCall π σ) (k : ℕ) :
    deliveries (log ++ [c]) k = deliveries log k ++ (c.delivery k).toList := by
  rw [deliveries, List.filterMap_append]
  cases h : c.delivery k with
  | none => rw [List.filterMap_cons_none h]; rfl
  | some a => rw [List.filterMap_cons_some h]; rfl

theorem delivery_eq_none {c : SinkCall π σ} (h : c.isRecord = false) (k : ℕ) :
    c.delivery k = none := by
  cases c with
  | record => cases h
  | _ => rfl

theorem length_delivery (h : Handed π σ) (k : ℕ) :
    ((SinkCall.record h .ok).delivery k).toList.length = if h.shard = k then 1 else 0 := by
  dsimp only [SinkCall.delivery]
  split <;> rfl

theorem eq_of_delivery {c : SinkCall π σ} {k : ℕ} {h : Handed π σ} (hc : c.delivery k = some h) :
    c = .record h .ok ∧ h.shard = k := by
  cases c with
  | record h' result => cases result <;> grind [SinkCall.delivery]
  | _ => cases hc

/-- A call was for the first record of its shard that was not yet delivered, which the client could
see and convert. -/
structure InTurn (P : ParserProtocol π σ) (X : Platform)
    (published : ℕ → List (MarketCaptureRecord π)) (before : List (SinkCall π σ))
    (h : Handed π σ) : Prop where
  position_eq : h.position = (deliveries before h.shard).length
  record_eq : (published h.shard)[h.position]? = some h.record
  isVisible : visible P h.sources h.directoryGeneration h.record = true
  converted : P.convertRecord X h.record h.shard h.sources = some h.output

/-- Every call of the sink for records was in turn. -/
def AllInTurn (P : ParserProtocol π σ) (X : Platform)
    (published : ℕ → List (MarketCaptureRecord π)) (log : List (SinkCall π σ)) : Prop :=
  ∀ before h result after, log = before ++ .record h result :: after →
    InTurn P X published before h

theorem split_log {before after : List (SinkCall π σ)} {c d : SinkCall π σ}
    (h : log ++ [c] = before ++ d :: after) :
    (before = log ∧ d = c) ∨ ∃ rest, log = before ++ d :: rest := by
  rcases List.eq_nil_or_concat after with rfl | ⟨middle, last, rfl⟩
  · obtain ⟨hlog, hlast⟩ := List.append_inj' h rfl
    exact .inl ⟨hlog.symm, (List.singleton_inj.mp hlast).symm⟩
  · rw [List.concat_eq_append, ← List.cons_append, ← List.append_assoc] at h
    exact .inr ⟨middle, (List.append_inj' h rfl).1⟩

theorem AllInTurn.append (hall : AllInTurn P X published log) {c : SinkCall π σ}
    (hc : ∀ h result, c = .record h result → InTurn P X published log h) :
    AllInTurn P X published (log ++ [c]) := by
  intro before h result after heq
  rcases split_log heq with ⟨rfl, hc'⟩ | ⟨rest, hlog⟩
  · exact hc h result hc'.symm
  · exact hall before h result rest hlog

theorem AllInTurn.of_append {rest : List (SinkCall π σ)}
    (hall : AllInTurn P X published (log ++ rest)) : AllInTurn P X published log :=
  fun before h result after heq =>
    hall before h result (after ++ rest) (by rw [heq, List.append_assoc]; rfl)

theorem AllInTurn.publish {published' : ℕ → List (MarketCaptureRecord π)}
    (hall : AllInTurn P X published log)
    (hle : ∀ k, published k <+: published' k) : AllInTurn P X published' log := by
  intro before h result after heq
  obtain ⟨hposition, hrecord, hvisible, hconverted⟩ := hall before h result after heq
  refine ⟨hposition, ?_, hvisible, hconverted⟩
  obtain ⟨rest, hrest⟩ := hle h.shard
  rw [← hrest, List.getElem?_append_left (List.getElem?_eq_some_iff.mp hrecord).1]
  exact hrecord

/-- The records delivered from a shard are the first ones published there. -/
theorem AllInTurn.deliveries_eq (hall : AllInTurn P X published log) (k : ℕ) :
    (deliveries log k).map Handed.position = List.range (deliveries log k).length ∧
      (deliveries log k).map Handed.record <+: published k := by
  -- The induction is on the log from its end, where the next call is.
  induction log using List.reverseRecOn with
  | nil => exact ⟨rfl, List.nil_prefix⟩
  | append_singleton log c ih =>
    obtain ⟨hpositions, hrecords⟩ := ih hall.of_append
    rw [deliveries_append]
    cases hc : c.delivery k with
    | none =>
      rw [Option.toList_none, List.append_nil]
      exact ⟨hpositions, hrecords⟩
    | some h =>
      obtain ⟨rfl, rfl⟩ := eq_of_delivery hc
      obtain ⟨hposition, hrecord, _, _⟩ := hall log h .ok [] rfl
      rw [Option.toList_some, List.map_append, List.map_append, List.length_append,
        List.length_singleton, List.range_succ, hpositions]
      refine ⟨by rw [List.map_singleton, hposition], ?_⟩
      obtain ⟨rest, hrest⟩ := hrecords
      have hlength : ((deliveries log h.shard).map Handed.record).length = h.position := by
        rw [List.length_map, hposition]
      rw [← hrest, ← hlength, List.getElem?_append_right le_rfl, Nat.sub_self] at hrecord
      cases rest with
      | nil => cases hrecord
      | cons r rest =>
        cases hrecord
        exact ⟨rest, by rw [← hrest, List.append_assoc]; rfl⟩

/-! ## The invariant -/

/-- The shard whose `read` the client is about to store. -/
def ClientPc.unstored : ClientPc π σ → ℕ → ℕ
  | .draining _ (.advancing _ shard _), k => if shard = k then 1 else 0
  | _, _ => 0

/-- What the client knows of the head that it has chosen. -/
def HeadKnown (P : ParserProtocol π σ) (X : Platform) (A : ArenaShape) (s : ClientState π σ) :
    ClientPc π σ → Prop
  | .draining _ (.scanning _ _ (some (shard, _))) | .draining _ (.taking _ shard) =>
    shard < A.shardCount.toNat ∧ (s.arena.rings shard).read < (s.arena.rings shard).written
  | .draining _ (.handing _ shard record output) =>
    shard < A.shardCount.toNat ∧ (s.published shard)[(s.arena.rings shard).read]? = some record ∧
      visible P s.sources s.directoryGeneration record = true ∧
      P.convertRecord X record shard s.sources = some output
  | .draining _ (.advancing _ shard _) =>
    (s.arena.rings shard).read < (s.arena.rings shard).written ∧
      ∃ before h, s.log = before ++ [.record h .ok] ∧ h.shard = shard ∧
        h.position = (s.arena.rings shard).read
  | _ => True

/-- A ring has what was published and not drained, and in its free slot what the producer has stored
there. -/
structure ShardHeld (A : ArenaShape) (ring : SlotRing (MarketCaptureRecord π))
    (published : List (MarketCaptureRecord π)) (stored : Option (MarketCaptureRecord π)) : Prop where
  capacity_eq : ring.capacity = 2 ^ A.ringBits
  holds : ring.Holds published
  room : stored ≠ none → ring.written < ring.read + ring.capacity
  stored_eq : ∀ record, stored = some record → ring.item ring.written = record

/-- The invariant of the drain. -/
structure RingDrain (P : ParserProtocol π σ) (X : Platform) (A : ArenaShape)
    (s : ClientState π σ) : Prop where
  shards : ∀ k, ShardHeld A (s.arena.rings k) (s.published k) (s.stored k)
  head : HeadKnown P X A s s.pc
  cursor : ∀ k, (s.arena.rings k).read + s.pc.unstored k = (deliveries s.log k).length
  inTurn : AllInTurn P X s.published s.log

theorem ringDrain_attached (arena : CaptureArena π σ) (slots : ℕ → ℕ → MarketCaptureRecord π)
    (epoch : UInt64) : RingDrain P X A (.attached A arena slots epoch) := by
  refine ⟨fun k => ⟨rfl, SlotRing.holds_empty _ _, fun h => absurd rfl h, nofun⟩, trivial,
    fun _ => rfl, ?_⟩
  intro before h result after heq
  cases before <;> cases heq

section Shard

variable {ring : SlotRing (MarketCaptureRecord π)} {published : List (MarketCaptureRecord π)}
  {stored : Option (MarketCaptureRecord π)}

theorem ShardHeld.advance (h : ShardHeld A ring published stored) (hlt : ring.read < ring.written) :
    ShardHeld A ring.advance published stored :=
  ⟨h.capacity_eq, h.holds.advance hlt,
    fun hne => (h.room hne).trans (by dsimp only [SlotRing.advance]; omega), h.stored_eq⟩

theorem ShardHeld.store (h : ShardHeld A ring published stored) (hroom : ring.hasRoom = true)
    (record : MarketCaptureRecord π) : ShardHeld A (ring.store record) published (some record) := by
  have hlt : ring.written < ring.read + ring.capacity := by
    rw [SlotRing.hasRoom, decide_eq_true_eq] at hroom
    have := h.holds.read_le
    omega
  refine ⟨h.capacity_eq, h.holds.store hlt record, fun _ => hlt, fun record' heq => ?_⟩
  cases heq
  exact SlotRing.item_store_written ring record

theorem ShardHeld.publish (h : ShardHeld A ring published (some record)) :
    ShardHeld A ring.publish (published ++ [record]) none :=
  ⟨h.capacity_eq, h.holds.publish (h.room nofun) (h.stored_eq record rfl), fun hne => absurd rfl hne,
    nofun⟩

end Shard

theorem ringRecord_eq_item {ring : SlotRing (MarketCaptureRecord π)} {bits : ℕ}
    (h : ring.capacity = 2 ^ bits) (position : ℕ) : ringRecord ring position = ring.item position := by
  rw [ringRecord, SlotRing.item, h, Nat.and_two_pow_sub_one_eq_mod]

/-! ## The client's steps -/

/-- A place of the client where it knows nothing of a head. -/
def ClientPc.headless : ClientPc π σ → Bool
  | .draining _ (.scanning _ _ (some _)) | .draining _ (.taking _ _)
  | .draining _ (.handing _ _ _ _) | .draining _ (.advancing _ _ _) => false
  | _ => true

theorem headKnown_of_headless {pc : ClientPc π σ} (h : pc.headless = true) : HeadKnown P X A s pc := by
  unfold HeadKnown
  split <;> trivial

theorem unstored_of_headless {pc : ClientPc π σ} (h : pc.headless = true) (k : ℕ) :
    pc.unstored k = 0 := by
  unfold ClientPc.unstored
  split
  · cases h
  · rfl

/-- A step of the client that leaves the shared memory and delivers nothing. -/
structure Quiet (s t : ClientState π σ) : Prop where
  arena_eq : t.arena = s.arena
  stored_eq : t.stored = s.stored
  published_eq : t.published = s.published
  log_eq : t.log = s.log ∨ ∃ c : SinkCall π σ, c.isRecord = false ∧ t.log = s.log ++ [c]

theorem Quiet.deliveries_eq (h : Quiet s t) (k : ℕ) : deliveries t.log k = deliveries s.log k := by
  rcases h.log_eq with hlog | ⟨c, hc, hlog⟩
  · rw [hlog]
  · rw [hlog, deliveries_append, delivery_eq_none hc, Option.toList_none, List.append_nil]

theorem RingDrain.quiet (h : RingDrain P X A s) (hquiet : Quiet s t)
    (hhead : HeadKnown P X A t t.pc) (hunstored : ∀ k, t.pc.unstored k = s.pc.unstored k) :
    RingDrain P X A t := by
  have hdeliveries := hquiet.deliveries_eq
  obtain ⟨harena, hstored, hpublished, hlog⟩ := hquiet
  refine ⟨?_, hhead, fun k => ?_, ?_⟩
  · rw [harena, hpublished, hstored]
    exact h.shards
  · rw [harena, hunstored, hdeliveries]
    exact h.cursor k
  · rw [hpublished]
    rcases hlog with hlog | ⟨c, hc, hlog⟩
    · rw [hlog]
      exact h.inTurn
    · rw [hlog]
      refine h.inTurn.append fun h' result heq => ?_
      rw [heq] at hc
      cases hc

/-- Nothing changes for the drain where the client goes from a place without a head to another. -/
theorem RingDrain.headless (h : RingDrain P X A s) (ht : Quiet s t ∧ t.pc.headless = true)
    (hs : ∀ k, s.pc.unstored k = 0) : RingDrain P X A t :=
  h.quiet ht.1 (headKnown_of_headless ht.2) fun k => by rw [hs, unstored_of_headless ht.2]

theorem quiet_finish (s : ClientState π σ) (status : Status) (error : String) :
    Quiet s (s.finish status error) ∧ (s.finish status error).pc.headless = true :=
  ⟨⟨rfl, rfl, rfl, .inl rfl⟩, rfl⟩

theorem quiet_installDirectory (s : ClientState π σ) (call : ClientCall) (generation : UInt64)
    (copied : List σ) (input : ClientInput) :
    Quiet s (s.installDirectory P call generation copied input) ∧
      (s.installDirectory P call generation copied input).pc.headless = true := by
  unfold installDirectory
  repeat' split
  all_goals exact ⟨⟨rfl, rfl, rfl, .inl rfl⟩, rfl⟩

theorem quiet_loadStep (s : ClientState π σ) (call : ClientCall) (pc : LoadPc σ)
    (input : ClientInput) :
    Quiet s (s.loadStep P A call pc input) ∧ (s.loadStep P A call pc input).pc.headless = true := by
  unfold loadStep
  cases pc with
  | confirmCount generation copied =>
    dsimp only
    split
    · exact ⟨⟨rfl, rfl, rfl, .inl rfl⟩, rfl⟩
    · exact quiet_installDirectory s call generation copied input
  | _ =>
    dsimp only
    repeat' split
    all_goals exact ⟨⟨rfl, rfl, rfl, .inl rfl⟩, rfl⟩

theorem quiet_lossStep (s : ClientState π σ) (call : ClientCall) (work : ProgressWork) (index : ℕ)
    (input : ClientInput) :
    Quiet s (s.lossStep L A call work index input) ∧
      (s.lossStep L A call work index input).pc.headless = true := by
  unfold lossStep
  dsimp only
  repeat' split
  all_goals exact ⟨⟨rfl, rfl, rfl, .inl rfl⟩, rfl⟩

/-- `publishProgressTo` does not touch the shared memory, and calls other sinks. -/
theorem quiet_progressStep (s : ClientState π σ) (call : ClientCall) (pc : ProgressPc)
    (input : ClientInput) :
    Quiet s (s.progressStep L A call pc input) ∧
      (s.progressStep L A call pc input).pc.headless = true := by
  unfold progressStep
  cases pc with
  | losses work index => exact quiet_lossStep s call work index input
  | gaps work remaining =>
    cases remaining <;> dsimp only <;> split
    · exact ⟨⟨rfl, rfl, rfl, .inl rfl⟩, rfl⟩
    · exact ⟨⟨rfl, rfl, rfl, .inl rfl⟩, rfl⟩
    · exact ⟨⟨rfl, rfl, rfl, .inr ⟨_, rfl, rfl⟩⟩, rfl⟩
    · exact ⟨⟨rfl, rfl, rfl, .inr ⟨_, rfl, rfl⟩⟩, rfl⟩
  | forward progress => exact ⟨⟨rfl, rfl, rfl, .inr ⟨_, rfl, rfl⟩⟩, rfl⟩
  | _ =>
    dsimp only
    repeat' split
    all_goals exact ⟨⟨rfl, rfl, rfl, .inl rfl⟩, rfl⟩

theorem quiet_drainLoop (s : ClientState π σ) (call : ClientCall) (drained : ℕ) :
    Quiet s (s.drainLoop call drained) ∧ (s.drainLoop call drained).pc.headless = true := by
  refine ⟨⟨rfl, rfl, rfl, .inl rfl⟩, ?_⟩
  dsimp only [drainLoop]
  split <;> rfl

/-! ## The loop of the drain -/

/-- The client looks at one shard after another, and keeps a shard that is not empty. -/
theorem RingDrain.scan (h : RingDrain P X A s) {candidate : ℕ} {first : Option (ℕ × ℕ)}
    (hpc : s.pc = .draining call (.scanning drained candidate first)) (input : ClientInput) :
    RingDrain P X A (s.drainStep P X A call (.scanning drained candidate first) input) := by
  have hunstored : ∀ k, s.pc.unstored k = 0 := fun k => by rw [hpc]; rfl
  have hknown := h.head
  rw [hpc] at hknown
  dsimp only [drainStep]
  split
  · rename_i hcandidate
    split
    · exact h.headless (quiet_finish s _ _) hunstored
    · rename_i hcursors
      refine h.quiet ⟨rfl, rfl, rfl, .inl rfl⟩ ?_ fun k => by rw [hunstored]; rfl
      dsimp only
      split
      · cases first with
        | none => trivial
        | some first => exact hknown
      · rename_i hne
        have hlt : candidate < A.shardCount.toNat ∧
            (s.arena.rings candidate).read < (s.arena.rings candidate).written := by
          simp only [not_or, not_lt] at hcursors
          exact ⟨hcandidate, lt_of_le_of_ne hcursors.1 hne⟩
        cases first with
        | none => exact hlt
        | some first =>
          dsimp only
          split
          · exact hlt
          · exact hknown
  · cases first with
    | none => exact h.headless ⟨⟨rfl, rfl, rfl, .inl rfl⟩, rfl⟩ hunstored
    | some first =>
      refine h.quiet ⟨rfl, rfl, rfl, .inl rfl⟩ hknown fun k => by rw [hunstored]; rfl

/-- The client tests and converts the head that it has chosen. -/
theorem RingDrain.take (h : RingDrain P X A s)
    (hpc : s.pc = .draining call (.taking drained shard)) :
    RingDrain P X A (s.takeHead P X A call drained shard) := by
  have hunstored : ∀ k, s.pc.unstored k = 0 := fun k => by rw [hpc]; rfl
  obtain ⟨hshard, hlt⟩ : shard < A.shardCount.toNat ∧
      (s.arena.rings shard).read < (s.arena.rings shard).written := by
    have hknown := h.head
    rw [hpc] at hknown
    exact hknown
  have hrecord : (s.published shard)[(s.arena.rings shard).read]? =
      some (ringRecord (s.arena.rings shard) (s.arena.rings shard).read) := by
    rw [ringRecord_eq_item (h.shards shard).capacity_eq]
    exact (h.shards shard).holds.item_eq le_rfl hlt
  unfold takeHead
  dsimp only
  split
  · exact h.headless (quiet_finish s _ _) hunstored
  split
  · split
    · exact h.headless (quiet_finish s _ _) hunstored
    · exact h.headless ⟨⟨rfl, rfl, rfl, .inl rfl⟩, rfl⟩ hunstored
  rename_i hvisible
  split
  · exact h.headless (quiet_finish s _ _) hunstored
  · rename_i output houtput
    refine h.quiet ⟨rfl, rfl, rfl, .inl rfl⟩ ⟨hshard, hrecord, ?_, houtput⟩
      fun k => by rw [hunstored]; rfl
    rwa [Bool.not_eq_true', Bool.not_eq_false] at hvisible

/-- The client calls the sink with the head. -/
theorem RingDrain.hand (h : RingDrain P X A s) {output : BinaryMarketRecord}
    (hpc : s.pc = .draining call (.handing drained shard record output)) (input : ClientInput) :
    RingDrain P X A (s.drainStep P X A call (.handing drained shard record output) input) := by
  have hknown := h.head
  rw [hpc] at hknown
  obtain ⟨-, hrecord, hvisible, houtput⟩ := hknown
  have hcursor : ∀ k, (s.arena.rings k).read = (deliveries s.log k).length := fun k => by
    have := h.cursor k
    rw [hpc] at this
    exact this
  have hlt : (s.arena.rings shard).read < (s.arena.rings shard).written := by
    rw [(h.shards shard).holds.written_eq]
    exact (List.getElem?_eq_some_iff.mp hrecord).1
  have hturn : InTurn P X s.published s.log (s.handed shard record output) :=
    ⟨hcursor shard, hrecord, hvisible, houtput⟩
  have hall := h.inTurn.append (c := .record _ input.result) fun h' result heq => by
    cases heq
    exact hturn
  dsimp only [drainStep]
  split
  · rename_i hok
    refine ⟨h.shards, ⟨hlt, s.log, s.handed shard record output, ?_, rfl, rfl⟩, fun k => ?_, hall⟩
    · rw [hok]
      rfl
    · change (s.arena.rings k).read + (if shard = k then 1 else 0) = _
      dsimp only [called]
      rw [deliveries_append, hok, hcursor k, List.length_append, length_delivery]
      rfl
  · rename_i hne
    refine ⟨h.shards, trivial, fun k => ?_, hall⟩
    change (s.arena.rings k).read + 0 = _
    dsimp only [finish, called]
    have hnone : (SinkCall.record (s.handed shard record output) input.result).delivery k =
        none := by
      cases hresult : input.result with
      | ok => exact absurd hresult hne
      | _ => rfl
    rw [deliveries_append, hnone, Option.toList_none, List.append_nil, hcursor k, Nat.add_zero]

/-- The client stores `read`. -/
theorem RingDrain.advance (h : RingDrain P X A s)
    (hpc : s.pc = .draining call (.advancing drained shard record)) (input : ClientInput) :
    RingDrain P X A (s.drainStep P X A call (.advancing drained shard record) input) := by
  have hknown := h.head
  rw [hpc] at hknown
  obtain ⟨hlt, _⟩ := hknown
  have hcursor : ∀ k, (s.arena.rings k).read + (if shard = k then 1 else 0) =
      (deliveries s.log k).length := fun k => by
    have := h.cursor k
    rw [hpc] at this
    exact this
  have hrings : (s.drainStep P X A call (.advancing drained shard record) input).arena.rings =
      Function.update s.arena.rings shard (s.arena.rings shard).advance :=
    rfl
  have hheadless :
      (s.drainStep P X A call (.advancing drained shard record) input).pc.headless = true :=
    (quiet_drainLoop (s.advanceHead P shard record) call (drained + 1)).2
  refine ⟨fun k => ?_, headKnown_of_headless hheadless, fun k => ?_, h.inTurn⟩
  · rw [hrings]
    rcases eq_or_ne k shard with rfl | hne
    · rw [Function.update_self]
      exact (h.shards k).advance hlt
    · rw [Function.update_of_ne hne]
      exact h.shards k
  · rw [hrings, unstored_of_headless hheadless]
    have hk := hcursor k
    rcases eq_or_ne k shard with rfl | hne
    · rw [if_pos rfl] at hk
      rw [Function.update_self]
      exact hk
    · rw [if_neg hne.symm] at hk
      rw [Function.update_of_ne hne]
      exact hk

theorem ringDrain_drainStep (h : RingDrain P X A s) {pc : DrainPc π}
    (hpc : s.pc = .draining call pc) (input : ClientInput) :
    RingDrain P X A (s.drainStep P X A call pc input) := by
  cases pc with
  | checkGeneration | checkCount =>
    refine h.headless ⟨⟨rfl, rfl, rfl, .inl rfl⟩, ?_⟩ fun k => by rw [hpc]; rfl
    dsimp only [drainStep]
    split <;> rfl
  | registering =>
    have hunstored : ∀ k, s.pc.unstored k = 0 := fun k => by rw [hpc]; rfl
    dsimp only [drainStep]
    split
    · exact h.headless (quiet_drainLoop s call 0) hunstored
    split
    · exact h.headless (quiet_finish s _ _) hunstored
    split
    · refine h.headless ⟨⟨rfl, rfl, rfl, .inr ⟨_, rfl, rfl⟩⟩, ?_⟩ hunstored
      dsimp only [called]
      rw [hpc]
      rfl
    · exact h.headless ⟨⟨rfl, rfl, rfl, .inr ⟨_, rfl, rfl⟩⟩, rfl⟩ hunstored
  | scanning drained candidate first => exact h.scan hpc input
  | taking drained shard => exact h.take hpc
  | handing drained shard record output => exact h.hand hpc input
  | advancing drained shard record => exact h.advance hpc input

/-! ## The producer's steps -/

/-- A step of the producer: every `read` and every published record stays. -/
theorem RingDrain.produce (h : RingDrain P X A s)
    (hread : ∀ k, (t.arena.rings k).read = (s.arena.rings k).read)
    (hpublished : ∀ k, s.published k <+: t.published k) (hlog : t.log = s.log) (hpc : t.pc = s.pc)
    (hsources : t.sources = s.sources) (hgeneration : t.directoryGeneration = s.directoryGeneration)
    (hshards : ∀ k, ShardHeld A (t.arena.rings k) (t.published k) (t.stored k)) :
    RingDrain P X A t := by
  have hwritten : ∀ k, (s.arena.rings k).written ≤ (t.arena.rings k).written := fun k => by
    rw [(h.shards k).holds.written_eq, (hshards k).holds.written_eq]
    exact (hpublished k).length_le
  -- What the client has seen behind `read` stays there.
  have hbehind : ∀ {k}, (s.arena.rings k).read < (s.arena.rings k).written →
      (t.arena.rings k).read < (t.arena.rings k).written := fun {k} hlt => by
    rw [hread]
    exact hlt.trans_le (hwritten k)
  refine ⟨hshards, ?_, fun k => ?_, ?_⟩
  · have hknown := h.head
    rw [hpc]
    generalize s.pc = pc at hknown
    cases pc with
    | draining call pc =>
      cases pc with
      | scanning drained candidate first =>
        cases first with
        | none => trivial
        | some first => exact ⟨hknown.1, hbehind hknown.2⟩
      | taking drained shard => exact ⟨hknown.1, hbehind hknown.2⟩
      | handing drained shard record output =>
        obtain ⟨hshard, hrecord, hvisible, hconverted⟩ := hknown
        obtain ⟨rest, hrest⟩ := hpublished shard
        refine ⟨hshard, ?_, by rw [hsources, hgeneration]; exact hvisible,
          by rw [hsources]; exact hconverted⟩
        rw [hread, ← hrest, List.getElem?_append_left (List.getElem?_eq_some_iff.mp hrecord).1]
        exact hrecord
      | advancing drained shard record =>
        obtain ⟨hlt, before, h', hlast, hshard, hposition⟩ := hknown
        exact ⟨hbehind hlt, before, h', hlog ▸ hlast, hshard,
          by rw [hread]; exact hposition⟩
      | _ => trivial
    | _ => trivial
  · rw [hread, hpc, hlog]
    exact h.cursor k
  · rw [hlog]
    exact h.inTurn.publish hpublished

theorem read_update (rings : ℕ → SlotRing (MarketCaptureRecord π)) (shard : ℕ)
    {ring : SlotRing (MarketCaptureRecord π)} (h : ring.read = (rings shard).read) (k : ℕ) :
    (Function.update rings shard ring k).read = (rings k).read := by
  rcases eq_or_ne k shard with rfl | hne
  · rw [Function.update_self, h]
  · rw [Function.update_of_ne hne]

theorem ringDrain_storeRecord (h : RingDrain P X A s)
    (ht : s.storeRecord shard record = some t) : RingDrain P X A t := by
  unfold ClientState.storeRecord at ht
  split at ht
  · rename_i hroom
    cases ht
    refine h.produce (read_update s.arena.rings shard rfl) (fun k => List.prefix_rfl) rfl rfl rfl rfl
      fun k => ?_
    · dsimp only
      rcases eq_or_ne k shard with rfl | hne
      · rw [Function.update_self, Function.update_self]
        exact (h.shards k).store hroom record
      · rw [Function.update_of_ne hne, Function.update_of_ne hne]
        exact h.shards k
  · cases ht

theorem published_before (published : ℕ → List (MarketCaptureRecord π)) (shard : ℕ)
    (record : MarketCaptureRecord π) (k : ℕ) :
    published k <+: Function.update published shard (published shard ++ [record]) k := by
  rcases eq_or_ne k shard with rfl | hne
  · rw [Function.update_self]
    exact List.prefix_append _ _
  · exact ⟨[], by rw [List.append_nil, Function.update_of_ne hne]⟩

theorem ringDrain_publishRecord (h : RingDrain P X A s) (ht : s.publishRecord shard = some t) :
    RingDrain P X A t := by
  unfold publishRecord at ht
  split at ht
  · cases ht
  · rename_i record hstored
    cases ht
    have hshard := h.shards shard
    rw [hstored] at hshard
    refine h.produce (read_update s.arena.rings shard rfl)
      (published_before s.published shard record) rfl rfl rfl rfl fun k => ?_
    · dsimp only
      rcases eq_or_ne k shard with rfl | hne
      · rw [Function.update_self, Function.update_self, Function.update_self]
        exact hshard.publish
      · rw [Function.update_of_ne hne, Function.update_of_ne hne, Function.update_of_ne hne]
        exact h.shards k

theorem rings_store (a : CaptureArena π σ) (store : ArenaStore σ) :
    (a.store store).rings = a.rings := by
  cases store <;> rfl

theorem quiet_enter (s : ClientState π σ) (call : ClientCall) :
    Quiet s (s.enter A call) ∧ (s.enter A call).pc.headless = true := by
  unfold enter
  cases call <;> dsimp only
  repeat' split
  all_goals exact ⟨⟨rfl, rfl, rfl, .inl rfl⟩, rfl⟩

/-! ## Every run -/

/-- An action keeps the invariant of the drain. -/
theorem ringDrain_step {a : ClientAction π σ} (ht : s.step P L X A a = some t)
    (h : RingDrain P X A s) : RingDrain P X A t := by
  cases a with
  | call call =>
    simp only [step] at ht
    split at ht
    · rename_i hpc
      cases ht
      exact h.headless (quiet_enter s call) fun k => by rw [hpc]; rfl
    · cases ht
  | client input =>
    simp only [step, clientStep] at ht
    split at ht
    · cases ht
    · rename_i call pc hpc
      cases ht
      exact h.headless (quiet_loadStep s call pc input) fun k => by rw [hpc]; rfl
    · rename_i call pc hpc
      cases ht
      exact ringDrain_drainStep h hpc input
    · rename_i call pc hpc
      cases ht
      exact h.headless (quiet_progressStep s call pc input) fun k => by rw [hpc]; rfl
  | store shard record => exact ringDrain_storeRecord h ht
  | publish shard => exact ringDrain_publishRecord h ht
  | arena store =>
    cases ht
    refine h.produce (fun k => ?_) (fun k => List.prefix_rfl) rfl rfl rfl rfl fun k => ?_
    · rw [rings_store]
    · rw [rings_store]
      exact h.shards k

theorem ringDrain_run {actions : List (ClientAction π σ)}
    (h : Machine.run (step P L X A) s actions = some t) (hs : RingDrain P X A s) :
    RingDrain P X A t :=
  Machine.run_invariant (fun _ _ _ hstep hs => ringDrain_step hstep hs) h hs

/-- The client's own steps store `read` where the sink has returned `Ok`, and nowhere else. -/
theorem read_clientStep {input : ClientInput} (ht : s.clientStep P L X A input = some t) (k : ℕ) :
    (t.arena.rings k).read = (s.arena.rings k).read + s.pc.unstored k := by
  unfold clientStep at ht
  split at ht
  · cases ht
  · rename_i call pc hpc
    cases ht
    rw [(quiet_loadStep s call pc input).1.arena_eq, hpc]
    rfl
  · rename_i call pc hpc
    cases ht
    rw [hpc]
    cases pc with
    | advancing drained shard record =>
      change (Function.update s.arena.rings shard (s.arena.rings shard).advance k).read =
        (s.arena.rings k).read + if shard = k then 1 else 0
      rcases eq_or_ne k shard with rfl | hne
      · rw [Function.update_self, if_pos rfl]
        rfl
      · rw [Function.update_of_ne hne, if_neg hne.symm]
        rfl
    | taking drained shard =>
      dsimp only [drainStep, takeHead]
      repeat' split
      all_goals rfl
    | _ =>
      dsimp only [drainStep]
      repeat' split
      all_goals rfl
  · rename_i call pc hpc
    cases ht
    rw [(quiet_progressStep s call pc input).1.arena_eq, hpc]
    rfl

/-- The other actions: the client is called, or the producer stores or publishes something. -/
theorem otherStep_cases {a : ClientAction π σ} (ht : s.step P L X A a = some t)
    (ha : ∀ input, a ≠ .client input) :
    (∃ call, t = s.enter A call) ∨
      t.log = s.log ∧ t.pc = s.pc ∧ (∀ k, (t.arena.rings k).read = (s.arena.rings k).read) ∧
        ∀ k, s.published k <+: t.published k ∧
          (t.published k = s.published k ∨ t.arena.progress = s.arena.progress) := by
  cases a with
  | client input => exact absurd rfl (ha input)
  | call call =>
    simp only [step] at ht
    split at ht
    · cases ht
      exact .inl ⟨call, rfl⟩
    · cases ht
  | store shard record =>
    simp only [step, ClientState.storeRecord] at ht
    split at ht
    · cases ht
      exact .inr ⟨rfl, rfl, read_update s.arena.rings shard rfl,
        fun k => ⟨List.prefix_rfl, .inl rfl⟩⟩
    · cases ht
  | publish shard =>
    simp only [step, publishRecord] at ht
    split at ht
    · cases ht
    · cases ht
      exact .inr ⟨rfl, rfl, read_update s.arena.rings shard rfl,
        fun k => ⟨published_before s.published shard _ k, .inr rfl⟩⟩
  | arena store =>
    cases ht
    exact .inr ⟨rfl, rfl, fun k => by rw [rings_store], fun k => ⟨List.prefix_rfl, .inl rfl⟩⟩

theorem read_step {a : ClientAction π σ} (ht : s.step P L X A a = some t)
    (ha : ∀ input, a ≠ .client input) (k : ℕ) :
    (t.arena.rings k).read = (s.arena.rings k).read := by
  rcases otherStep_cases ht ha with ⟨call, rfl⟩ | ⟨-, -, hread, -⟩
  · rw [(quiet_enter s call).1.arena_eq]
  · exact hread k

/-! ## Exactly once -/

/-- Before a record is handed to the sink, every earlier record of its shard was delivered, at a
moment at which its source and its revision were visible. -/
def NoneOvertaken (P : ParserProtocol π σ) (s : ClientState π σ) : Prop :=
  ∀ before h result after, s.log = before ++ .record h result :: after →
    ∀ position < h.position, ∃ d ∈ deliveries before h.shard, d.position = position ∧
      (s.published h.shard)[position]? = some d.record ∧
      visible P d.sources d.directoryGeneration d.record = true

/-- What holds of the drain at every moment. -/
structure DrainedOnce (P : ParserProtocol π σ) (L : LossProtocol) (X : Platform) (A : ArenaShape)
    (s : ClientState π σ) : Prop where
  /-- The positions of the records delivered from a shard are `0, 1, …`: no record is delivered twice,
  and none is left out. -/
  positions_eq : ∀ k,
    (deliveries s.log k).map Handed.position = List.range (deliveries s.log k).length
  /-- The records delivered from a shard are the first ones published there. -/
  delivered : ∀ k, (deliveries s.log k).map Handed.record <+: s.published k
  /-- Whatever the sink returned, it was called with the first record not yet delivered, which was
  visible and converted. -/
  inTurn : AllInTurn P X s.published s.log
  noneOvertaken : NoneOvertaken P s
  /-- A ring's `read` counts the records that the sink has taken, except that the last one is counted
  with the client's next step. -/
  cursor : ∀ k, (s.arena.rings k).read + s.pc.unstored k = (deliveries s.log k).length
  /-- The client's next step counts it. -/
  counted : ∀ input t, s.step P L X A (.client input) = some t →
    ∀ k, (t.arena.rings k).read = (s.arena.rings k).read + s.pc.unstored k
  /-- A `read` that a step changes is one more, and the sink has just returned `Ok` for the record at
  its old position. -/
  advanced : ∀ a t, s.step P L X A a = some t →
    ∀ k, (t.arena.rings k).read ≠ (s.arena.rings k).read →
      (t.arena.rings k).read = (s.arena.rings k).read + 1 ∧
        ∃ before h, s.log = before ++ [.record h .ok] ∧ h.shard = k ∧
          h.position = (s.arena.rings k).read

theorem mem_deliveries {k : ℕ} {d : Handed π σ} (h : d ∈ deliveries log k) :
    d.shard = k ∧ ∃ before after, log = before ++ .record d .ok :: after := by
  obtain ⟨c, hc, hdelivery⟩ := List.mem_filterMap.mp h
  obtain ⟨rfl, hk⟩ := eq_of_delivery hdelivery
  exact ⟨hk, List.append_of_mem hc⟩

theorem RingDrain.noneOvertaken (h : RingDrain P X A s) : NoneOvertaken P s := by
  intro before hd result after heq position hlt
  have hbefore : AllInTurn P X s.published before :=
    AllInTurn.of_append (heq ▸ h.inTurn)
  have hmem : position ∈ (deliveries before hd.shard).map Handed.position := by
    rw [(hbefore.deliveries_eq hd.shard).1, List.mem_range,
      ← (h.inTurn before hd result after heq).position_eq]
    exact hlt
  obtain ⟨d, hd, rfl⟩ := List.mem_map.mp hmem
  obtain ⟨hshard, first, last, hsplit⟩ := mem_deliveries hd
  obtain ⟨_, hrecord, hvisible, _⟩ := hbefore first d .ok last hsplit
  exact ⟨d, hd, rfl, hshard ▸ hrecord, hvisible⟩

/-- A `read` that a step changes is the one that the client is about to store. -/
theorem RingDrain.advanced (h : RingDrain P X A s) {a : ClientAction π σ}
    (ht : s.step P L X A a = some t) {k : ℕ}
    (hne : (t.arena.rings k).read ≠ (s.arena.rings k).read) :
    (t.arena.rings k).read = (s.arena.rings k).read + 1 ∧
      ∃ before h, s.log = before ++ [.record h .ok] ∧ h.shard = k ∧
        h.position = (s.arena.rings k).read := by
  cases a with
  | client input =>
    have hread := read_clientStep (show s.clientStep P L X A input = some t from ht) k
    have hknown := h.head
    cases hpc : s.pc with
    | draining call pc =>
      rw [hpc] at hread hknown
      cases pc with
      | advancing drained shard record =>
        dsimp only [ClientPc.unstored] at hread
        split at hread
        · rename_i hk
          subst hk
          exact ⟨hread, hknown.2⟩
        · exact absurd hread hne
      | _ => exact absurd hread hne
    | _ =>
      rw [hpc] at hread
      exact absurd hread hne
  | _ => exact absurd (read_step ht (fun _ h => by cases h) k) hne

/-- In every interleaving of the client with the producer, whatever the sinks return, the rings are
drained exactly once and in order. -/
theorem ring_drained_exactly_once (P : ParserProtocol π σ) (L : LossProtocol) (X : Platform)
    (A : ArenaShape) (arena : CaptureArena π σ) (slots : ℕ → ℕ → MarketCaptureRecord π)
    (consumerEpoch : UInt64) (actions : List (ClientAction π σ)) (s : ClientState π σ)
    (h : Machine.run (ClientState.step P L X A) (.attached A arena slots consumerEpoch) actions =
      some s) : DrainedOnce P L X A s := by
  have hs := ringDrain_run h (ringDrain_attached arena slots consumerEpoch)
  exact ⟨fun k => (hs.inTurn.deliveries_eq k).1, fun k => (hs.inTurn.deliveries_eq k).2, hs.inTurn,
    hs.noneOvertaken, hs.cursor, fun input t ht => read_clientStep ht,
    fun a t ht k hne => hs.advanced ht hne⟩

/-! ## A small arena

One shard with a ring of two records, and one source whose descriptor is the source itself. -/

def smallTicker (receiveMonotonicNs shardSequence : UInt64) : MarketCaptureRecord SamplePayload where
  sourceId := 1
  flags := 0
  sourceGeneration := 1
  sessionEpoch := 1
  eventSequence := shardSequence
  frameSequence := 1
  nativeIdentityFirst := 0
  nativeIdentitySecond := 0
  exchangeTimestampNs := 1
  receiveRealtimeNs := receiveMonotonicNs
  receiveMonotonicNs := receiveMonotonicNs
  shardSequence := shardSequence
  payloadBytes := 88
  shardIndex := 0
  sourceFlags := 0x10
  channel := .bookTicker
  nativeIdentityShape := 0
  eventOrdinal := 0
  payload := {}

/-- A ledger with three market channels and the one for memberships. -/
def smallLosses : LossProtocol := ⟨4, 3, 1, 1⟩

def smallShape : ArenaShape := ⟨1, 1, 4, 1⟩

/-- The arena of a producer that has published one source and no losses. -/
def smallArena : CaptureArena SamplePayload BinaryMarketSource where
  consumerEpoch := 1
  directoryGeneration := 1
  directoryCount := 1
  sourceDirectory _ := smallSource
  rings _ := { capacity := 2, slots := fun _ => smallTicker 0 0 }
  progress _ := ⟨0, 0, 0, 0, 0⟩
  lossSnapshotFlags := 0
  lossRevision := 0
  lossLedger _ := ⟨0, 0, 0, 0, 0, 0, 0, 0, 0⟩

/-- The client goes on, and the sinks return `Ok`. -/
def goOn (steps : ℕ) : List (ClientAction SamplePayload BinaryMarketSource) :=
  List.replicate steps (.client {})

def twoPublished : List (ClientAction SamplePayload BinaryMarketSource) :=
  [.store 0 (smallTicker 10 1), .publish 0, .store 0 (smallTicker 20 2), .publish 0]

/-- The sink refuses the first one in one call of `drainTo` and takes it in the next. -/
def refusedThenTaken : List (ClientAction SamplePayload BinaryMarketSource) :=
  .call .loadSourceDirectory :: goOn 6 ++ twoPublished ++
    .call (.drainTo 1 ⟨false, false, false⟩) :: goOn 6 ++
    .client { result := .outOfRange } :: .call (.drainTo 1 ⟨false, false, false⟩) :: goOn 8

theorem refusedThenTaken_run :
    (Machine.run (step smallProtocol smallLosses .stored smallShape)
      (.attached smallShape smallArena (fun _ _ => smallTicker 0 0) 1) refusedThenTaken).map
        (fun s => (s.log.length, (deliveries s.log 0).map Handed.position,
          (s.published 0).length, (s.arena.rings 0).read)) = some (2, [0], 2, 1) := by
  decide +kernel

theorem ring_drained_exactly_once_refused :
    ∃ s, Machine.run (ClientState.step smallProtocol smallLosses .stored smallShape)
        (.attached smallShape smallArena (fun _ _ => smallTicker 0 0) 1) refusedThenTaken = some s ∧
      s.log.length = 2 ∧ (deliveries s.log 0).map Handed.position = [0] ∧
      DrainedOnce smallProtocol smallLosses .stored smallShape s := by
  obtain ⟨s, hs, heq⟩ := Option.map_eq_some_iff.mp refusedThenTaken_run
  simp only [Prod.mk.injEq] at heq
  exact ⟨s, hs, heq.1, heq.2.1, ring_drained_exactly_once smallProtocol smallLosses .stored smallShape
    smallArena (fun _ _ => smallTicker 0 0) 1 refusedThenTaken s hs⟩

end HftRecorder.Capture
