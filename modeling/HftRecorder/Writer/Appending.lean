import HftRecorder.Writer.Effects
import Mathlib.Tactic.SplitIfs

/-!
# What an append tests and pays

`append` tests the record, makes room for it, pays for it, and stores it. `Admitted` is what the tests
establish, `recordCost` the price: `requiredBytes_eq` says that the additions of the source, each with
its own overflow test, are one addition that must fit 64 bits.
-/

namespace HftRecorder.Corpus

open ByteLayout Codec

/-! ## The price of a record -/

/-- An amount after an addition that must fit 64 bits. -/
def charge (bytes amount : ℕ) : Option ℕ :=
  if bytes + amount ≤ maximumUInt64 then some (bytes + amount) else none

theorem charge_bind {f : ℕ → Option ℕ} {bytes amount more : ℕ}
    (hf : ∀ n ≤ maximumUInt64, f n = charge n more) :
    (charge bytes amount).bind f = charge bytes (amount + more) := by
  unfold charge
  by_cases h : bytes + amount ≤ maximumUInt64
  · rw [if_pos h, Option.bind_some, hf _ h, charge, add_assoc]
  · rw [if_neg h, Option.bind_none, if_neg (by omega)]

theorem addProduct_eq {bytes : ℕ} (h : bytes ≤ maximumUInt64) (count unitBytes : ℕ) :
    addProduct bytes count unitBytes = charge bytes (count * unitBytes) := by
  unfold addProduct charge
  by_cases hu : unitBytes = 0
  · simp [hu, h]
  · have hlt : count > (maximumUInt64 - bytes) / unitBytes ↔
        maximumUInt64 < bytes + count * unitBytes := by
      rw [gt_iff_lt, Nat.div_lt_iff_lt_mul (Nat.pos_of_ne_zero hu)]
      omega
    by_cases hc : bytes + count * unitBytes ≤ maximumUInt64
    · rw [if_neg (by rw [hlt]; omega), if_pos hc]
    · rw [if_pos ⟨hu, by rw [hlt]; omega⟩, if_neg hc]

theorem addFixed_eq {amount : ℕ} (h : amount ≤ maximumUInt64) (bytes : ℕ) :
    addFixed bytes amount = charge bytes amount := by
  unfold addFixed charge
  by_cases hc : bytes + amount ≤ maximumUInt64
  · rw [if_neg (by omega), if_pos hc]
  · rw [if_pos (by omega), if_neg hc]

/-- What a record reserves: its place in a block and in the two cut files, and, where they are new,
its source, its segment's header and footer, and its index entry. -/
def recordCost (X : Platform) (newSource openNew newIndex : Bool) : ℕ :=
  binaryMarketPendingRecordBytes X + kRecordCutReservationBytes +
    (if newSource then kSourceReservationBytes else 0) + (if openNew then 128 + 64 else 0) +
    (if newIndex then 72 else 0)

/-- What a record reserves of that for the cut files. -/
def recordGrowth (newSource : Bool) : ℕ :=
  kRecordCutReservationBytes + if newSource then 2 * kSourceStorageBytes else 0

theorem pendingRecordBytes_le (X : Platform) : binaryMarketPendingRecordBytes X ≤ maximumUInt64 :=
  Nat.le_sub_one_of_lt (Nat.mod_lt _ (by norm_num))

theorem cutGrowth_eq (newSource : Bool) : cutGrowth newSource = some (recordGrowth newSource) := by
  cases newSource <;> rfl

/-- The price is charged, unless the record needs a segment and the segment numbers are used up. -/
theorem requiredBytes_eq (X : Platform) (s : WriterState) (r : BinaryMarketRecord)
    (newSource : Bool) :
    requiredBytes X s r newSource =
      if openNeeded X s r.shardIndex = true ∧ s.nextSegmentNumber = maximumUInt32 then none
      else charge 0 (recordCost X newSource (openNeeded X s r.shardIndex) (indexNeeded X s r)) := by
  have hsome : ∀ n ≤ maximumUInt64, some n = charge n 0 := by
    intro n hn
    rw [charge, add_zero, if_pos hn]
  have hindex : ∀ n ≤ maximumUInt64, (if indexNeeded X s r = true then addFixed n 72 else some n) =
      charge n (if indexNeeded X s r then 72 else 0) := by
    intro n hn
    split_ifs
    · exact addFixed_eq (by decide) n
    · exact hsome n hn
  unfold requiredBytes recordCost
  simp only [Option.bind_eq_bind]
  by_cases hnumber : openNeeded X s r.shardIndex = true ∧ s.nextSegmentNumber = maximumUInt32
  · -- Whatever was added up so far, the missing segment number ends it.
    rw [if_pos hnumber]
    simp only [hnumber.1, hnumber.2, if_true, Option.bind_none, Option.bind_fun_none, ite_self]
  · rw [if_neg hnumber, addProduct_eq (pendingRecordBytes_le X), one_mul]
    have hsegment : ∀ n ≤ maximumUInt64,
        (if openNeeded X s r.shardIndex = true then
          if s.nextSegmentNumber = maximumUInt32 then
            none.bind fun n => if indexNeeded X s r = true then addFixed n 72 else some n
          else (addFixed n (128 + 64)).bind fun n =>
            if indexNeeded X s r = true then addFixed n 72 else some n
        else (some n).bind fun n => if indexNeeded X s r = true then addFixed n 72 else some n) =
        charge n ((if openNeeded X s r.shardIndex then 128 + 64 else 0) +
          if indexNeeded X s r then 72 else 0) := by
      intro n hn
      by_cases ho : openNeeded X s r.shardIndex = true
      · rw [if_pos ho, if_neg (fun h => hnumber ⟨ho, h⟩), addFixed_eq (by decide), if_pos ho]
        exact charge_bind hindex
      · rw [if_neg ho, if_neg ho, hsome n hn]
        exact charge_bind hindex
    refine (@charge_bind _ _ _ ((if newSource then kSourceReservationBytes else 0) +
      ((if openNeeded X s r.shardIndex then 128 + 64 else 0) +
        if indexNeeded X s r then 72 else 0)) ?_).trans ?_
    · intro n hn
      by_cases hnew : newSource = true
      · rw [if_pos hnew, if_pos hnew, addProduct_eq hn, one_mul]
        exact charge_bind hsegment
      · rw [if_neg hnew, if_neg hnew, hsome n hn]
        exact charge_bind hsegment
    · simp only [charge, zero_add, add_assoc]

/-! ## Paying -/

variable {X : Platform} {s u v : WriterState} {r : BinaryMarketRecord}

theorem reserveBytes_eq (s : WriterState) (bytes : ℕ) :
    reserveBytes s bytes =
      if addWithin s.projectedBytes bytes s.writeLimitBytes = true then (true, afterPay s bytes 0)
      else (false, afterQuota s) := by
  unfold reserveBytes
  split_ifs <;> rfl

/-! ## Admission -/

/-- What the tests of `append` establish of a record. -/
structure Admitted (X : Platform) (s : WriterState) (r : BinaryMarketRecord) (a : Admission) :
    Prop where
  active : s.active = true
  anchored : s.replayAnchorFrozen = true → s.manifest.replayAnchorMonotonicNs ≤ r.receiveMonotonicNs
  valid : validBinaryMarketRecord X r = true
  shard_lt : r.shardIndex < s.shardCount
  tail : r.payloadTailIsZero = true
  depth : advanceBinaryMarketDepthTransaction X r (s.depthTransactions r.shardIndex) =
    some a.depthTransaction
  source : ∃ state, sourceBefore s r = .ok (a.addedSource, state) ∧
    advanceBinaryMarketSourceState r state false = some a.prospective
  ordered : shardOrdered (s.segments r.shardIndex) r = true

/-- What a record that `append` admits has passed. -/
theorem admitted_of_ok {a : Admission} (h : admitRecord X s r = .ok a) : Admitted X s r a := by
  unfold admitRecord at h
  generalize (if r.channel = .sourceLifecycle then 1 else 0 : ℕ) = extra at h
  split at h
  · cases h
  split at h
  · cases h
  split at h
  · cases h
  rename_i hactive hfrozen hvalid
  split at h
  · cases h
  rename_i depthTransaction hd
  split at h
  · cases h
  rename_i addedSource state hb
  split at h
  · cases h
  rename_i prospective hs
  split at h
  · rename_i ho
    cases h
    simp only [Bool.not_eq_true', Bool.not_eq_false, not_or, not_and, not_lt, ge_iff_le,
      not_le] at hactive hfrozen hvalid
    exact ⟨hactive, hfrozen, hvalid.1, hvalid.2.1, hvalid.2.2.2, hd, ⟨state, hb, hs⟩, ho⟩
  · cases h

/-- Only a record that adds a catalogue entry needs room in the catalogue, and there is room. -/
theorem sources_lt_of_added {a : Admission} (h : Admitted X s r a)
    (ha : a.addedSource.isSome = true) : s.sources.length < kBinaryMarketMaximumSources := by
  obtain ⟨state, hbefore, -⟩ := h.source
  unfold sourceBefore at hbefore
  split at hbefore
  · dsimp only at hbefore
    split at hbefore
    · cases hbefore
    · rename_i hroom
      push Not at hroom
      exact hroom.2
  · split at hbefore
    · simp only [Except.ok.injEq, Prod.mk.injEq] at hbefore
      rw [← hbefore.1] at ha
      cases ha
    · cases hbefore

theorem sourceBefore_error_ne {status : Status} (h : sourceBefore s r = .error status) :
    status ≠ .ok := by
  unfold sourceBefore at h
  split at h
  · dsimp only at h
    split_ifs at h <;> cases h <;> decide
  · split at h <;> cases h
    decide

theorem admitRecord_error_ne {status : Status} (h : admitRecord X s r = .error status) : status ≠ .ok := by
  unfold admitRecord at h
  generalize (if r.channel = .sourceLifecycle then 1 else 0 : ℕ) = extra at h
  split at h
  · cases h; decide
  split at h
  · cases h; decide
  split at h
  · cases h; decide
  split at h
  · cases h; decide
  split at h
  · rename_i hb
    cases h
    exact sourceBefore_error_ne hb
  split at h
  · cases h; decide
  split at h
  · cases h
  · cases h; decide

end HftRecorder.Corpus
