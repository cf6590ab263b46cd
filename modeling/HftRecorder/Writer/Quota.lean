import HftRecorder.Writer.Calls
import Mathlib.Algebra.BigOperators.Group.Finset.Basic
import Mathlib.Algebra.Order.BigOperators.Group.Finset

/-!
# The byte quota

`cutBytes` is the room that the cut files of a state may need, with sums over the segments of all
shards; `startBudget_spec` says what `start` reserves. `Sized` is the part of the accounts that does
not depend on bytes: the tables of a writer are within their limits, and the steps of an append keep
them there.
-/

namespace HftRecorder.Corpus

open ByteLayout Codec

/-! ## What is used and what is owed -/

/-- The sum of an amount over the segments of all shards. -/
def shardSum (s : WriterState) (f : SegmentState → ℕ) : ℕ :=
  ∑ k ∈ Finset.range s.shardCount, f (s.segments k)

/-- The records that are not in a block yet. -/
def pendingRecords (s : WriterState) : ℕ := shardSum s fun segment => segment.pending.length

/-- The two manifests and the three table headers, with the same slack as `start` reserves. -/
def fixedMetadataBytes : ℕ := kCutHeaderReserveBytes + 2 * 192 + 3 * 64

/-- Twice the largest size that the cut of the state can have once its pending records are in
blocks. -/
def cutBytes (s : WriterState) : ℕ :=
  2 * (kCutHeaderReserveBytes + s.sources.length * kSourceStorageBytes +
    (s.blocks.length + pendingRecords s) * 96 + s.referenceReservedBytes)

theorem shardSum_update {s t : WriterState} {shard : ℕ} (hshard : shard < s.shardCount)
    (hcount : t.shardCount = s.shardCount)
    (hother : ∀ k, k ≠ shard → t.segments k = s.segments k) (f : SegmentState → ℕ) :
    shardSum t f + f (s.segments shard) = shardSum s f + f (t.segments shard) := by
  have hmem : shard ∈ Finset.range s.shardCount := Finset.mem_range.mpr hshard
  have hrest : ∑ k ∈ (Finset.range s.shardCount).erase shard, f (t.segments k) =
      ∑ k ∈ (Finset.range s.shardCount).erase shard, f (s.segments k) :=
    Finset.sum_congr rfl fun k hk => by rw [hother k (Finset.ne_of_mem_erase hk)]
  unfold shardSum
  rw [hcount, ← Finset.add_sum_erase _ (fun k => f (s.segments k)) hmem,
    ← Finset.add_sum_erase _ (fun k => f (t.segments k)) hmem]
  omega

theorem le_shardSum {s : WriterState} {shard : ℕ} (hshard : shard < s.shardCount)
    (f : SegmentState → ℕ) : f (s.segments shard) ≤ shardSum s f :=
  Finset.single_le_sum (f := fun k => f (s.segments k)) (fun _ _ => Nat.zero_le _)
    (Finset.mem_range.mpr hshard)

/-- What one shard's segment, the catalogue, and the blocks contribute to the cut. -/
def shardCut (s : WriterState) (shard : ℕ) : ℕ :=
  2 * (s.sources.length * kSourceStorageBytes +
    (s.blocks.length + (s.segments shard).pending.length) * 96 + s.referenceReservedBytes)

theorem subWrap_eq {a b : ℕ} (h : b ≤ a) (ha : a < 2 ^ 64) : subWrap a b = a - b := by
  unfold subWrap
  omega

variable {X : Platform} {s : WriterState}

/-! ## Start -/

theorem addProduct_some {bytes count unitBytes n : ℕ}
    (h : addProduct bytes count unitBytes = some n) : n = bytes + count * unitBytes := by
  unfold addProduct at h
  split_ifs at h
  exact (Option.some.inj h).symm

theorem cutReservationBytes_some {sources gaps blocks referenceBytes n : ℕ}
    (h : cutReservationBytes sources gaps blocks referenceBytes = some n) :
    n = 2 * (kCutHeaderReserveBytes + sources * 272 + gaps * 80 + blocks * 96 + referenceBytes) := by
  simp only [cutReservationBytes, Option.bind_eq_bind, Option.bind_eq_some_iff] at h
  obtain ⟨a, ha, b, hb, c, hc, d, hd, h⟩ := h
  have ha := addProduct_some ha
  have hb := addProduct_some hb
  have hc := addProduct_some hc
  have hd := addProduct_some hd
  split_ifs at h
  have h := Option.some.inj h
  omega

/-- What the arithmetic of `start` computes. -/
structure BudgetSpec (X : Platform) (config : BinaryMarketWriterConfig) (budget : StartBudget) :
    Prop where
  gapRecords : budget.maximumGapRecords =
    config.sources.length * kBinaryMarketStoredChannelCount
  cutReserve : budget.initialCutReserve =
    2 * (kCutHeaderReserveBytes + config.sources.length * kSourceStorageBytes)
  metadata : budget.fixedMetadata = fixedMetadataBytes +
    config.sources.length * kSourceStorageBytes + budget.initialCutReserve
  drain : budget.finalDrainReserve = maximumPendingRecords config * worstRecordBytes X +
    min (maximumPendingRecords config) (kBinaryMarketMaximumSources - config.sources.length) *
      kSourceReservationBytes
  minimum : budget.fixedMetadata + budget.finalDrainReserve + worstRecordBytes X ≤
    config.maximumBytes.toNat

/-- What the budget of a start consists of. -/
theorem startBudget_spec {config : BinaryMarketWriterConfig} {budget : StartBudget}
    (h : startBudget X config = some budget) : BudgetSpec X config budget := by
  simp only [startBudget, Option.bind_eq_bind, Option.bind_eq_some_iff] at h
  obtain ⟨gaps, hgaps, a, ha, b, hb, c, hc, reserve, hreserve, d, hd, h⟩ := h
  split at h
  · simp at h
  simp only [Option.bind_eq_some_iff] at h
  obtain ⟨e, he, f, hf, g, hg, i, hi, h⟩ := h
  have hgaps := addProduct_some hgaps
  have ha := addProduct_some ha
  have hb := addProduct_some hb
  have hc := addProduct_some hc
  have hreserve := cutReservationBytes_some hreserve
  have hd := addProduct_some hd
  have he := addProduct_some he
  have hf := addProduct_some hf
  have hg := addProduct_some hg
  have hi := addProduct_some hi
  have hstorage : kSourceStorageBytes = 992 := rfl
  have hchannels : kBinaryMarketStoredChannelCount = 9 := rfl
  split_ifs at h with hmax
  rw [zero_add] at hgaps he
  rw [one_mul] at hd hg hi
  rw [← Option.some.inj h]
  have hfixed : fixedMetadataBytes = kCutHeaderReserveBytes + 2 * 192 + 3 * 64 := rfl
  refine ⟨hgaps, ?_, ?_, ?_, ?_⟩ <;> dsimp only
  · rw [hgaps, hchannels] at hreserve
    rw [hstorage]
    omega
  · omega
  · omega
  · omega

/-! ## Limits -/

/-- The counts of a writer are within their limits. -/
structure Sized (s : WriterState) : Prop where
  sources_le : s.sources.length ≤ kBinaryMarketMaximumSources
  sourceStates_eq : s.sourceStates.length = s.sources.length
  index_le : s.index.length ≤ maximumUInt32
  gaps_le : s.gaps.length ≤ s.maximumGapRecords
  gapRecords_eq : s.maximumGapRecords = s.sources.length * kBinaryMarketStoredChannelCount
  reference_le : s.referencePayload.length ≤ s.referenceReservedBytes

theorem Sized.withSource (h : Sized s) {a : Admission}
    (hroom : a.addedSource.isSome = true → s.sources.length < kBinaryMarketMaximumSources) :
    Sized (withSource s a) := by
  unfold Corpus.withSource
  cases ha : a.addedSource with
  | none => exact h
  | some source =>
    have hlt := hroom (by simp [ha])
    have hgaps := h.gaps_le
    have hrecords := h.gapRecords_eq
    refine ⟨?_, ?_, h.index_le, ?_, ?_, h.reference_le⟩ <;>
      simp only [addSource, List.length_append, List.length_singleton, h.sourceStates_eq,
        Nat.add_mul] <;>
      omega

theorem Sized.withIndex (h : Sized s) (hlt : s.index.length < maximumUInt32) (shard : ℕ)
    (key : IndexKey) : Sized (withIndex s shard key) :=
  ⟨h.sources_le, h.sourceStates_eq, by simpa [Corpus.withIndex, Nat.add_one_le_iff] using hlt, h.gaps_le,
    h.gapRecords_eq, h.reference_le⟩

theorem Sized.acceptRecord (h : Sized s) (r : BinaryMarketRecord) (a : Admission)
    (position : ℕ) : Sized (acceptRecord X s r a position) :=
  ⟨h.sources_le, by simpa [Corpus.acceptRecord] using h.sourceStates_eq,
    by simpa [Corpus.acceptRecord] using h.index_le, h.gaps_le, h.gapRecords_eq, h.reference_le⟩

end HftRecorder.Corpus
