import HftRecorder.Lib.StableSort
import HftRecorder.Replay.Timeline

/-!
# The comparison of a timeline

`rebuildEvents_` sorts the events with `std::stable_sort`, which asks for a strict weak order. Events of
one time are compared by their ingest numbers if both have one and by their places otherwise, and the two
orders need not fit together. They fail to exactly if an event without a number has its place between two
numbered events whose numbers are in the other order (`Caught`).
-/

namespace HftRecorder.Replay

open StableSort

/-- The kinds in their order, with `2 ^ 32` places each. -/
def Event.place (event : Event) : ℕ := event.kind.value * 2 ^ 32 + event.rowIndex.toNat

theorem eventLess_iff {a b : Event} : eventLess a b = true ↔
    a.tsNs.toInt < b.tsNs.toInt ∨ a.tsNs.toInt = b.tsNs.toInt ∧
      ((0 < a.ingestSeq.toInt ∧ 0 < b.ingestSeq.toInt ∧ a.ingestSeq.toInt ≠ b.ingestSeq.toInt) ∧
          a.ingestSeq.toInt < b.ingestSeq.toInt ∨
        ¬ (0 < a.ingestSeq.toInt ∧ 0 < b.ingestSeq.toInt ∧ a.ingestSeq.toInt ≠ b.ingestSeq.toInt) ∧
          a.place < b.place) := by
  have hzero : (0 : Int64).toInt = 0 := rfl
  have ha := a.rowIndex.toNat_lt
  have hb := b.rowIndex.toNat_lt
  simp only [eventLess, Event.place, ne_eq, ← Int64.toInt_inj, ← EventKind.value_inj, gt_iff_lt,
    Int64.lt_iff_toInt_lt, UInt32.lt_iff_toNat_lt, hzero]
  split_ifs <;> simp only [decide_eq_true_eq] <;> omega

theorem eventLess_eq_false_iff {a b : Event} :
    (eventLess a b = false ∧ eventLess b a = false) ↔
      a.tsNs.toInt = b.tsNs.toInt ∧ a.place = b.place ∧
        (0 < a.ingestSeq.toInt → 0 < b.ingestSeq.toInt → a.ingestSeq.toInt = b.ingestSeq.toInt) := by
  rw [← Bool.not_eq_true, ← Bool.not_eq_true, eventLess_iff, eventLess_iff]
  omega

/-- An event without a number has its place between two numbered events of its time, of which the one
with the smaller number has the later place. -/
structure Caught (before caught after : Event) : Prop where
  timeBefore : before.tsNs = caught.tsNs
  timeAfter : after.tsNs = caught.tsNs
  unnumbered : ¬ 0 < caught.ingestSeq
  numbered : 0 < before.ingestSeq
  numbers : before.ingestSeq < after.ingestSeq
  placeAfter : after.place ≤ caught.place
  placeBefore : caught.place ≤ before.place

theorem caught_iff {before caught after : Event} : Caught before caught after ↔
    before.tsNs.toInt = caught.tsNs.toInt ∧ after.tsNs.toInt = caught.tsNs.toInt ∧
      caught.ingestSeq.toInt ≤ 0 ∧ 0 < before.ingestSeq.toInt ∧
      before.ingestSeq.toInt < after.ingestSeq.toInt ∧ after.place ≤ caught.place ∧
      caught.place ≤ before.place := by
  have hzero : (0 : Int64).toInt = 0 := rfl
  constructor
  · rintro ⟨htb, hta, hun, hnum, hlt, hpa, hpb⟩
    rw [Int64.lt_iff_toInt_lt, hzero] at hun hnum
    rw [Int64.lt_iff_toInt_lt] at hlt
    exact ⟨by rw [htb], by rw [hta], by omega, hnum, hlt, hpa, hpb⟩
  · rintro ⟨htb, hta, hun, hnum, hlt, hpa, hpb⟩
    exact ⟨Int64.toInt_inj.mp htb, Int64.toInt_inj.mp hta,
      by rw [Int64.lt_iff_toInt_lt, hzero]; omega, by rwa [Int64.lt_iff_toInt_lt, hzero],
      by rwa [Int64.lt_iff_toInt_lt], hpa, hpb⟩

/-- The comparison is a strict weak order on some events exactly if none of them is caught. -/
theorem strictWeakOn_eventLess_iff (events : List Event) : StrictWeakOn eventLess events ↔
    ∀ before ∈ events, ∀ caught ∈ events, ∀ after ∈ events, ¬ Caught before caught after := by
  constructor
  · intro h before hbefore caught hcaught after hafter hc
    rw [caught_iff] at hc
    obtain ⟨htb, hta, hun, hnum, hlt, hpa, hpb⟩ := hc
    -- The numbers put `before` before `after`, the places put it behind.
    have hless : eventLess before after = true := by
      rw [eventLess_iff]
      omega
    have hafter' : eventLess caught after = false := by
      rw [← Bool.not_eq_true, eventLess_iff]
      omega
    have hbefore' : eventLess before caught = false := by
      rw [← Bool.not_eq_true, eventLess_iff]
      omega
    have hle := h.le_trans hafter hcaught hbefore hafter' hbefore'
    rw [hless] at hle
    cases hle
  · intro hno
    simp only [caught_iff] at hno
    refine ⟨fun a _ => ?_, fun a ha b hb c hc hab hbc => ?_, fun a ha b hb c hc hab hba hbc hcb => ?_⟩
    · rw [← Bool.not_eq_true, eventLess_iff]
      omega
    · rw [eventLess_iff] at hab hbc ⊢
      -- If one of the three has no number, it would be caught by the other two.
      have h₁ := hno b hb a ha c hc
      have h₂ := hno c hc b hb a ha
      have h₃ := hno a ha c hc b hb
      rcases hab with hab | ⟨htab, hab⟩
      · left
        omega
      rcases hbc with hbc | ⟨htbc, hbc⟩
      · left
        omega
      refine Or.inr ⟨by omega, ?_⟩
      simp only [htab, htbc, true_and] at h₁ h₂ h₃
      rcases hab with ⟨hnab, hab⟩ | ⟨hnab, hab⟩ <;> rcases hbc with ⟨hnbc, hbc⟩ | ⟨hnbc, hbc⟩ <;> omega
    · obtain ⟨htab, hpab, hnab⟩ := eventLess_eq_false_iff.mp ⟨hab, hba⟩
      obtain ⟨htbc, hpbc, hnbc⟩ := eventLess_eq_false_iff.mp ⟨hbc, hcb⟩
      rw [eventLess_eq_false_iff]
      have h₁ := hno a ha b hb c hc
      have h₂ := hno c hc b hb a ha
      exact ⟨by omega, by omega, by omega⟩

section Rows

variable (trades : List TradeRow) (bookTickers : List BookTickerRow)

def numberedEvents : List Event := tradeEvents trades ++ bookTickerEvents bookTickers

/-- No trade and no book ticker without a number is caught. -/
def Untangled : Prop :=
  ∀ before ∈ numberedEvents trades bookTickers, ∀ caught ∈ numberedEvents trades bookTickers,
    ∀ after ∈ numberedEvents trades bookTickers, ¬ Caught before caught after

/-- Depth rows have no numbers and the first places, so they are in no one's way. -/
theorem untangled_iff (depths : List DepthRow) : Untangled trades bookTickers ↔
    ∀ before ∈ loadedEvents trades bookTickers depths,
      ∀ caught ∈ loadedEvents trades bookTickers depths,
      ∀ after ∈ loadedEvents trades bookTickers depths, ¬ Caught before caught after := by
  have hloaded : loadedEvents trades bookTickers depths
      = depthEvents depths ++ numberedEvents trades bookTickers := List.append_assoc ..
  rw [hloaded]
  refine ⟨fun h before hbefore caught hcaught after hafter hc => ?_, fun h before hbefore caught
    hcaught after hafter => h before (by simp [hbefore]) caught (by simp [hcaught]) after
      (by simp [hafter])⟩
  have hdepth : ∀ event ∈ depthEvents depths, event.ingestSeq = 0 ∧ event.place < 2 ^ 32 := by
    intro event hevent
    obtain ⟨i, hi, rfl⟩ := List.mem_mapIdx.mp hevent
    exact ⟨rfl, by simpa [Event.place, EventKind.value] using (UInt32.ofNat i).toNat_lt⟩
  have hother : ∀ event ∈ numberedEvents trades bookTickers, 2 ^ 32 ≤ event.place := by
    intro event hevent
    rw [numberedEvents, List.mem_append] at hevent
    rcases hevent with hevent | hevent <;>
    · obtain ⟨i, hi, rfl⟩ := List.mem_mapIdx.mp hevent
      simp only [Event.place, EventKind.value]
      omega
  -- The two events around have numbers.
  have hpos : ∀ event ∈ depthEvents depths ++ numberedEvents trades bookTickers,
      0 < event.ingestSeq → event ∈ numberedEvents trades bookTickers := by
    intro event hevent hnumber
    rcases List.mem_append.mp hevent with hevent | hevent
    · rw [(hdepth event hevent).1] at hnumber
      exact absurd hnumber (by decide)
    · exact hevent
  have hbefore' := hpos before hbefore hc.numbered
  have hafter' := hpos after hafter (Int64.lt_trans hc.numbered hc.numbers)
  rcases List.mem_append.mp hcaught with hcaught | hcaught
  · have := (hdepth caught hcaught).2
    have := hother after hafter'
    have := hc.placeAfter
    omega
  · exact h before hbefore' caught hcaught after hafter' hc

/-- The comparison is a strict weak order on the events of some rows, and so the sorted timeline is the
only one there is, exactly if no row is caught. -/
theorem timeline_order_iff (depths : List DepthRow) :
    (StrictWeakOn eventLess (loadedEvents trades bookTickers depths) ∧
      ∀ timeline, SortedStably eventLess (loadedEvents trades bookTickers depths) timeline ↔
        timeline = sortedEvents trades bookTickers depths) ↔ Untangled trades bookTickers := by
  rw [untangled_iff trades bookTickers depths, ← strictWeakOn_eventLess_iff]
  exact ⟨fun h => h.1, fun h => ⟨h, fun timeline => h.sortedStably_iff⟩⟩

end Rows

/-- A trade with number 10 and two book tickers of its time, of which only the second has a number: the
trade goes before the first ticker, the first ticker before the second and the second before the trade. -/
theorem eventLess_cycle : ¬ StrictWeakOn eventLess (loadedEvents [{ tsNs := 1, ingestSeq := 10 }]
    [{ tsNs := 1 }, { tsNs := 1, ingestSeq := 5 }] []) := by
  intro h
  have hless := h.trans { tsNs := 1, ingestSeq := 10, rowIndex := 0, kind := .trade } (by decide)
    { tsNs := 1, ingestSeq := 0, rowIndex := 0, kind := .bookTicker } (by decide)
    { tsNs := 1, ingestSeq := 5, rowIndex := 1, kind := .bookTicker } (by decide)
    (by decide) (by decide)
  revert hless
  decide

end HftRecorder.Replay
