import HftRecorder.Writer.Quota
import HftRecorder.Writer.Outcomes

/-!
# The reservation for the cut

Every record, source, and byte of a reference pays in advance for its place in the cut, and blocks
come from records that were paid for, whether a block is full, its channel changes, its segment is
rotated, or a cut is published. `Solvent` is the balance of these accounts: `cutReservedBytes` covers
the cut of the state with all its pending records in blocks of their own, and `projectedBytes` covers
it together with the index and what the segments hold. It holds whatever directory operations fail: a
call that fails after it has paid leaves bytes that are never spent.
-/

namespace HftRecorder.Corpus

open ByteLayout Codec

variable {X : Platform} {s t u : WriterState} {bytes growth : ℕ}

/-- What a segment holds of the quota with its blocks and its pending records. -/
def SegmentState.heldBytes (X : Platform) (segment : SegmentState) : ℕ :=
  segment.header.storedBlockBytes + segment.pending.length * binaryMarketPendingRecordBytes X

/-- The accounts of a writer with `bytes` reserved and not spent, `growth` of them for the cut. -/
structure Solvent (X : Platform) (bytes growth : ℕ) (s : WriterState) : Prop where
  held_le : fixedMetadataBytes + s.index.length * 72 + shardSum s (SegmentState.heldBytes X) +
    s.cutReservedBytes + bytes ≤ s.projectedBytes + growth
  cut_le : cutBytes s + growth ≤ s.cutReservedBytes
  projected_le : s.projectedBytes ≤ s.writeLimitBytes
  limit_le : s.writeLimitBytes ≤ s.config.maximumBytes.toNat

theorem Solvent.projected_lt (h : Solvent X bytes growth s) : s.projectedBytes < 2 ^ 64 := by
  have h1 := h.projected_le
  have h2 := h.limit_le
  have h3 := s.config.maximumBytes.toNat_lt
  omega

theorem Solvent.held_add_le (h : Solvent X bytes growth s) :
    fixedMetadataBytes + s.index.length * 72 + shardSum s (SegmentState.heldBytes X) + bytes ≤
      s.projectedBytes := by
  have h1 := h.held_le
  have h2 := h.cut_le
  omega

theorem Solvent.mono {less : ℕ} (h : Solvent X bytes growth s) (hle : less ≤ bytes) :
    Solvent X less growth s := by
  have h1 := h.held_le
  exact ⟨by omega, h.cut_le, h.projected_le, h.limit_le⟩

theorem Solvent.giveUp (h : Solvent X bytes growth s) (hle : growth ≤ bytes) : Solvent X 0 0 s := by
  have h1 := h.held_le
  have h2 := h.cut_le
  exact ⟨by omega, by omega, h.projected_le, h.limit_le⟩

/-! ## Changes -/

theorem shardSum_le (hcount : t.shardCount = s.shardCount) {f : SegmentState → ℕ}
    (h : ∀ k, f (t.segments k) ≤ f (s.segments k)) : shardSum t f ≤ shardSum s f := by
  unfold shardSum
  rw [hcount]
  exact Finset.sum_le_sum fun k _ => h k

variable {shard : ℕ}

theorem le_of_update {segment : SegmentState} {f : SegmentState → ℕ}
    (hsegments : t.segments = Function.update s.segments shard segment)
    (h : f segment ≤ f (s.segments shard)) (k : ℕ) : f (t.segments k) ≤ f (s.segments k) := by
  rw [hsegments]
  rcases eq_or_ne k shard with rfl | hne
  · rw [Function.update_self]
    exact h
  · rw [Function.update_of_ne hne]

/-- A change that stores no block, and leaves the segments with no more than they hold. -/
theorem Solvent.shrink (h : Solvent X bytes growth s) (hkept : t.kept = s.kept)
    (hprojected : t.projectedBytes = s.projectedBytes) (hblocks : t.blocks = s.blocks)
    (hheld : ∀ k, (t.segments k).heldBytes X ≤ (s.segments k).heldBytes X)
    (hpending : ∀ k, (t.segments k).pending.length ≤ (s.segments k).pending.length) :
    Solvent X bytes growth t := by
  have hcount := shardCount_of_kept hkept
  have hcut := cutReservedBytes_of_kept hkept
  have h1 := shardSum_le (f := SegmentState.heldBytes X) hcount hheld
  have h2 : pendingRecords t ≤ pendingRecords s := shardSum_le hcount hpending
  have h3 := h.held_le
  have h4 := h.cut_le
  refine ⟨?_, ?_, ?_, ?_⟩
  · rw [hcut, hprojected, index_of_kept hkept]
    omega
  · unfold cutBytes at h4 ⊢
    rw [hcut, sources_of_kept hkept, hblocks, referenceReservedBytes_of_kept hkept]
    omega
  · rw [hprojected, writeLimitBytes_of_kept hkept]
    exact h.projected_le
  · rw [writeLimitBytes_of_kept hkept, config_of_kept hkept]
    exact h.limit_le

/-- A change of one segment, if the amounts balance there. -/
theorem Solvent.update (h : Solvent X bytes growth s) {bytes' growth' : ℕ}
    (hshard : shard < s.shardCount) (hconfig : t.config = s.config)
    (hlimit : t.writeLimitBytes = s.writeLimitBytes)
    (hcut : t.cutReservedBytes = s.cutReservedBytes)
    (hprojected : t.projectedBytes ≤ s.projectedBytes)
    (hother : ∀ k, k ≠ shard → t.segments k = s.segments k)
    (hheld : t.index.length * 72 + (t.segments shard).heldBytes X + bytes' + s.projectedBytes +
        growth ≤
      s.index.length * 72 + (s.segments shard).heldBytes X + bytes + t.projectedBytes + growth')
    (hshardCut : shardCut t shard + growth' ≤ shardCut s shard + growth) :
    Solvent X bytes' growth' t := by
  have hcount : t.shardCount = s.shardCount := by
    rw [WriterState.shardCount, hconfig, WriterState.shardCount]
  have h1 := shardSum_update hshard hcount hother (SegmentState.heldBytes X)
  have h2 : pendingRecords t + (s.segments shard).pending.length =
      pendingRecords s + (t.segments shard).pending.length :=
    shardSum_update hshard hcount hother fun segment => segment.pending.length
  have h3 := h.held_le
  have h4 := h.cut_le
  refine ⟨?_, ?_, ?_, ?_⟩
  · rw [hcut]
    omega
  · unfold cutBytes at h4 ⊢
    unfold shardCut at hshardCut
    rw [hcut]
    omega
  · rw [hlimit]
    exact hprojected.trans h.projected_le
  · rw [hlimit, hconfig]
    exact h.limit_le

/-- A flush turns what its records had reserved into a block, and releases the rest. -/
theorem Solvent.flush (h : Solvent X bytes growth s) (hshard : shard < s.shardCount)
    {first : BinaryMarketRecord} {rest : List BinaryMarketRecord} {encoded : Bytes}
    (hguard : FlushGuard X s shard first rest encoded) :
    Solvent X bytes growth (recordFlush X s shard first rest encoded) := by
  have hheld := h.held_add_le
  have hle := le_shardSum hshard (SegmentState.heldBytes X)
  have hsegment : (s.segments shard).heldBytes X = (s.segments shard).header.storedBlockBytes +
    (s.segments shard).pending.length * binaryMarketPendingRecordBytes X := rfl
  have hlt := h.projected_lt
  have hfits := hguard.fits
  have hlength : rest.length + 1 = (s.segments shard).pending.length := by
    rw [hguard.pending_eq, List.length_cons]
  have hexact : pendingReservation X (rest.length + 1) =
      (s.segments shard).pending.length * binaryMarketPendingRecordBytes X := by
    rw [pendingReservation, hlength, Nat.mod_eq_of_lt (by omega)]
  -- What is released and what the block takes add up to what its records had reserved.
  have hreleased : releasedBytes X (rest.length + 1) encoded + (64 + encoded.length) =
      (s.segments shard).pending.length * binaryMarketPendingRecordBytes X := by
    rw [releasedBytes, hexact]
    omega
  generalize ht : recordFlush X s shard first rest encoded = t
  have hself : t.segments shard = (s.segments shard).flushed X (rest.length + 1) encoded := by
    rw [← ht]
    exact Function.update_self ..
  have hprojected : t.projectedBytes =
      s.projectedBytes - releasedBytes X (rest.length + 1) encoded := by
    rw [← ht]
    exact subWrap_eq (by omega) hlt
  have hframe : t.sources = s.sources ∧ t.referenceReservedBytes = s.referenceReservedBytes ∧
      t.blocks.length = s.blocks.length + 1 ∧ t.index = s.index := by
    rw [← ht]
    exact ⟨rfl, rfl, by simp [recordFlush], rfl⟩
  obtain ⟨hsources, hreference, hblocks, hindex⟩ := hframe
  refine h.update hshard (by rw [← ht]; rfl) (by rw [← ht]; rfl) (by rw [← ht]; rfl) (by omega) ?_ ?_
    ?_
  · intro k hk
    rw [← ht]
    exact Function.update_of_ne hk ..
  · rw [hself, SegmentState.heldBytes, flushed_header, flushed_pending, hprojected, hindex,
      List.length_nil]
    dsimp only
    omega
  · rw [shardCut, shardCut, hsources, hreference, hblocks, hself, flushed_pending, List.length_nil]
    omega

theorem sealedHeader_storedBlockBytes (header : BinaryMarketSegmentHeader) :
    (sealedHeader header).storedBlockBytes = header.storedBlockBytes := by
  cases header
  rfl

theorem Change.solvent (hchange : Change X s t) (h : Solvent X bytes growth s) :
    Solvent X bytes growth t := by
  have hkept := hchange.kept_eq
  -- All but a flush leave the blocks and the projection, and change one segment if any.
  have hone : ∀ {t : WriterState} {shard : ℕ} {segment : SegmentState}, t.kept = s.kept →
      t.projectedBytes = s.projectedBytes → t.blocks = s.blocks →
      t.segments = Function.update s.segments shard segment →
      segment.header.storedBlockBytes ≤ (s.segments shard).header.storedBlockBytes →
      segment.pending.length ≤ (s.segments shard).pending.length → Solvent X bytes growth t := by
    intro t shard segment hkept hprojected hblocks hsegments hstored hpending
    refine h.shrink hkept hprojected hblocks (le_of_update hsegments ?_)
      (le_of_update (f := fun segment => segment.pending.length) hsegments hpending)
    exact Nat.add_le_add hstored (Nat.mul_le_mul_right _ hpending)
  cases hchange with
  | disk | quota => exact h.shrink hkept rfl rfl (fun _ => le_rfl) fun _ => le_rfl
  | stream | close => exact hone hkept rfl rfl rfl le_rfl le_rfl
  | checksum shard =>
    exact hone hkept rfl rfl rfl (sealedHeader_storedBlockBytes (s.segments shard).header).le le_rfl
  | flush hshard _ hguard => exact h.flush hshard hguard
  | reset => exact hone hkept rfl rfl rfl (Nat.zero_le _) (Nat.zero_le _)
  | number => exact hone hkept rfl rfl rfl (Nat.zero_le _) le_rfl

theorem Changes.solvent (hchanges : Changes X s t) (h : Solvent X bytes growth s) :
    Solvent X bytes growth t :=
  hchanges.invariant (P := Solvent X bytes growth) (fun hchange h => hchange.solvent h) h

/-- An operation that can open a segment, whose header and footer are paid for on their own. -/
theorem Prepared.solvent {ok : Bool} (hprepared : Prepared X s shard (ok, t))
    (h : Solvent X bytes growth s) : Solvent X bytes growth t := by
  have hkept := hprepared.kept_eq
  cases hprepared with
  | kept hchanges => exact hchanges.solvent h
  | @opened v hchanges =>
    have hv := hchanges.solvent h
    have hsegments : (openedSegment v shard).segments = Function.update v.segments shard
      { v.segments shard with projectedBytes := 128 + 64, isOpen := true } := rfl
    exact hv.shrink (hkept.trans hchanges.kept_eq.symm) rfl rfl
      (le_of_update (f := SegmentState.heldBytes X) hsegments le_rfl)
      fun k => (congrArg List.length (openedSegment_pending v shard k)).le

/-! ## Paying and spending -/

theorem Solvent.congr (h : Solvent X bytes growth s) {bytes' growth' : ℕ}
    (hconfig : t.config = s.config) (hsegments : t.segments = s.segments)
    (hprojected : t.projectedBytes ≤ t.writeLimitBytes)
    (hlimit : t.writeLimitBytes ≤ s.config.maximumBytes.toNat) (hindex : t.index = s.index)
    (hheld : t.cutReservedBytes + bytes' + s.projectedBytes + growth ≤
      s.cutReservedBytes + bytes + t.projectedBytes + growth')
    (hcut : 2 * (t.sources.length * kSourceStorageBytes + t.blocks.length * 96 +
        t.referenceReservedBytes) + growth' + s.cutReservedBytes ≤
      2 * (s.sources.length * kSourceStorageBytes + s.blocks.length * 96 +
        s.referenceReservedBytes) + growth + t.cutReservedBytes) : Solvent X bytes' growth' t := by
  have hsum : ∀ f, shardSum t f = shardSum s f := fun f => by
    rw [shardSum, WriterState.shardCount, hconfig, hsegments]
    rfl
  have h1 := h.held_le
  have h2 := h.cut_le
  refine ⟨?_, ?_, hprojected, hconfig ▸ hlimit⟩
  · rw [hsum, hindex]
    omega
  · unfold cutBytes pendingRecords at h2 ⊢
    rw [hsum]
    omega

theorem Solvent.afterPay (h : Solvent X bytes growth s) {more moreGrowth : ℕ}
    (hlimit : addWithin s.projectedBytes more s.writeLimitBytes = true) :
    Solvent X (bytes + more) (growth + moreGrowth) (afterPay s more moreGrowth) := by
  simp only [addWithin, Bool.and_eq_true, decide_eq_true_eq] at hlimit
  refine h.congr rfl rfl hlimit.2 h.limit_le rfl ?_ ?_ <;> simp only [Corpus.afterPay] <;> omega

theorem Solvent.withSource {a : Admission}
    (h : Solvent X (bytes + if a.addedSource.isSome then kSourceReservationBytes else 0)
      (growth + if a.addedSource.isSome then 2 * kSourceStorageBytes else 0) s) :
    Solvent X bytes growth (withSource s a) := by
  unfold Corpus.withSource
  cases ha : a.addedSource with
  | none => simpa [ha] using h
  | some source =>
    rw [ha] at h
    have hk : kSourceReservationBytes = 3 * kSourceStorageBytes := rfl
    refine h.congr rfl rfl h.projected_le h.limit_le rfl ?_ ?_ <;>
      simp only [addSource, List.length_append, List.length_singleton, Option.isSome_some, if_true,
        Nat.add_mul] <;>
      omega

theorem Solvent.withIndex (h : Solvent X (bytes + 72) growth s) (hshard : shard < s.shardCount)
    (key : IndexKey) : Solvent X bytes growth (withIndex s shard key) := by
  have hlength : (Corpus.withIndex s shard key).index.length = s.index.length + 1 := by
    simp [Corpus.withIndex]
  have hheld : ((Corpus.withIndex s shard key).segments shard).heldBytes X =
      (s.segments shard).heldBytes X := by
    rw [withIndex_segments_self]
    rfl
  have hprojected : (Corpus.withIndex s shard key).projectedBytes = s.projectedBytes := rfl
  refine h.update hshard rfl rfl rfl le_rfl (fun k hk => withIndex_segments_of_ne hk) ?_ ?_
  · rw [hlength, hheld, hprojected]
    omega
  · rw [shardCut, withIndex_segments_self]
    rfl

/-- Taking a record spends the price of its place in a block and in the cut. -/
theorem Solvent.acceptRecord {r : BinaryMarketRecord} (h : Solvent X
      (bytes + (binaryMarketPendingRecordBytes X + kRecordCutReservationBytes))
      (growth + kRecordCutReservationBytes) s) (hshard : r.shardIndex < s.shardCount)
    (a : Admission) (position : ℕ) : Solvent X bytes growth (acceptRecord X s r a position) := by
  generalize ht : Corpus.acceptRecord X s r a position = t
  have hself : t.segments r.shardIndex = (s.segments r.shardIndex).accept X r := by
    rw [← ht]
    exact Function.update_self ..
  have hframe : t.sources = s.sources ∧ t.referenceReservedBytes = s.referenceReservedBytes ∧
      t.blocks = s.blocks ∧ t.projectedBytes = s.projectedBytes := by
    rw [← ht]
    exact ⟨rfl, rfl, rfl, rfl⟩
  obtain ⟨hsources, hreference, hblocks, hprojected⟩ := hframe
  have hindex : t.index.length = s.index.length := by
    rw [← ht]
    simp [Corpus.acceptRecord]
  have hk : kRecordCutReservationBytes = 2 * 96 := rfl
  have hstored : ((s.segments r.shardIndex).accept X r).header.storedBlockBytes =
      (s.segments r.shardIndex).header.storedBlockBytes := by
    cases s.segments r.shardIndex
    rfl
  refine h.update hshard (by rw [← ht]; rfl) (by rw [← ht]; rfl) (by rw [← ht]; rfl) hprojected.le
    ?_ ?_ ?_
  · intro k hk
    rw [← ht]
    exact Function.update_of_ne hk ..
  · rw [hself, SegmentState.heldBytes, SegmentState.heldBytes, hstored, accept_pending,
      List.length_append, List.length_singleton, Nat.add_mul, hprojected, hindex]
    omega
  · rw [shardCut, shardCut, hsources, hreference, hblocks, hself, accept_pending,
      List.length_append, List.length_singleton]
    omega

/-! ## Every call -/

/-- What holds of a writer whatever its directory operations meet. -/
structure Prepaid (X : Platform) (s : WriterState) : Prop where
  solvent : Solvent X 0 0 s
  sized : Sized s

theorem sized_of_kept (hkept : t.kept = s.kept) (h : Sized s) : Sized t := by
  have hs : Sized s.kept :=
    ⟨h.sources_le, h.sourceStates_eq, h.index_le, h.gaps_le, h.gapRecords_eq, h.reference_le⟩
  rw [← hkept] at hs
  exact ⟨hs.sources_le, hs.sourceStates_eq, hs.index_le, hs.gaps_le, hs.gapRecords_eq,
    hs.reference_le⟩

theorem Changes.prepaid (hchanges : Changes X s t) (h : Prepaid X s) : Prepaid X t :=
  ⟨hchanges.solvent h.solvent, sized_of_kept hchanges.kept_eq h.sized⟩

section Paid

variable {a : Admission} {price shard : ℕ} {newIndex ok : Bool}

theorem Payable.paid (hpay : Payable X s u a price newIndex) (h : Prepaid X s)
    (hprepared : Prepared X (afterPrice u a price) shard (ok, t)) :
    Solvent X (kRecordCutReservationBytes + binaryMarketPendingRecordBytes X +
        (if newIndex then 72 else 0) + if a.addedSource.isSome then kSourceReservationBytes else 0)
      (kRecordCutReservationBytes + if a.addedSource.isSome then 2 * kSourceStorageBytes else 0) t ∧
      Sized t := by
  have hu := hpay.changes.prepaid h
  have hpaid : Solvent X (0 + price) (0 + recordGrowth a.addedSource.isSome) (afterPrice u a price) :=
    hu.solvent.afterPay hpay.quota
  obtain ⟨openNew, hcost⟩ := hpay.cost
  have hs := hprepared.solvent hpaid
  refine ⟨⟨?_, ?_, hs.projected_le, hs.limit_le⟩, sized_of_kept hprepared.kept_eq ?_⟩
  · have hheld := hs.held_le
    rw [hcost, recordCost, recordGrowth] at hheld
    omega
  · have hcut := hs.cut_le
    rw [recordGrowth] at hcut
    omega
  · exact ⟨hu.sized.1, hu.sized.2, hu.sized.3, hu.sized.4, hu.sized.5, hu.sized.6⟩

theorem Payable.sources_eq (hpay : Payable X s u a price newIndex)
    (hprepared : Prepared X (afterPrice u a price) shard (ok, t)) : t.sources = s.sources :=
  have hu : u.sources = s.sources := sources_of_kept hpay.changes.kept_eq
  (sources_of_kept hprepared.kept_eq).trans hu

theorem Payable.shardCount_eq (hpay : Payable X s u a price newIndex)
    (hprepared : Prepared X (afterPrice u a price) shard (ok, t)) : t.shardCount = s.shardCount :=
  have hu : u.shardCount = s.shardCount := shardCount_of_kept hpay.changes.kept_eq
  (shardCount_of_kept hprepared.kept_eq).trans hu

end Paid

variable {result : Status × WriterState}

/-- `append`, wherever it ends. -/
theorem Appended.prepaid {r : BinaryMarketRecord} (happended : Appended X s r result)
    (h : Prepaid X s) : Prepaid X result.2 := by
  have hk : kSourceReservationBytes = 3 * kSourceStorageBytes := rfl
  cases happended with
  | refused => exact h
  | unpaid _ hflushes => exact hflushes.changes.prepaid h
  | @unstored a price newIndex u v _ hpay hchanges =>
    have hprepared : Prepared X (afterPrice u a price) r.shardIndex (false, v) := .kept hchanges
    obtain ⟨hsolvent, hsized⟩ := hpay.paid h hprepared
    refine ⟨hsolvent.giveUp ?_, hsized⟩
    split_ifs <;> omega
  | @unindexed a price u v ha hpay hprepared =>
    obtain ⟨hsolvent, hsized⟩ := hpay.paid h hprepared
    refine ⟨hsolvent.withSource.giveUp (by omega), hsized.withSource fun hadded => ?_⟩
    rw [hpay.sources_eq hprepared]
    exact sources_lt_of_added (admitted_of_ok ha) hadded
  | @stored a price position newIndex u v w ha hpay hprepared _ _ hindex =>
    obtain ⟨hsolvent, hsized⟩ := hpay.paid h hprepared
    have hadmitted := admitted_of_ok ha
    have hsource : Sized (withSource v a) := hsized.withSource fun hadded => by
      rw [hpay.sources_eq hprepared]
      exact sources_lt_of_added hadmitted hadded
    have hshard : r.shardIndex < (withSource v a).shardCount := by
      rw [WriterState.shardCount, withSource_config, ← WriterState.shardCount,
        hpay.shardCount_eq hprepared]
      exact hadmitted.shard_lt
    -- The record uses the rest of its price, after its source and its index entry.
    have hspend : ∀ {w : WriterState}, Solvent X (kRecordCutReservationBytes +
        binaryMarketPendingRecordBytes X) kRecordCutReservationBytes w →
        r.shardIndex < w.shardCount → Solvent X 0 0 (acceptRecord X w r a position) := by
      intro w hw hshard
      refine Solvent.acceptRecord ?_ hshard a position
      rw [zero_add, zero_add, Nat.add_comm (binaryMarketPendingRecordBytes X)]
      exact hw
    rcases hindex with ⟨-, rfl⟩ | ⟨rfl, hfull, -, rfl⟩
    · exact ⟨hspend (hsolvent.withSource.mono (Nat.le_add_right _ _)) hshard,
        hsource.acceptRecord r a position⟩
    · have hlt : (withSource v a).index.length < maximumUInt32 := by
        rw [withSource_index]
        exact Nat.lt_of_not_le fun hle => hfull (.inr hle)
      exact ⟨hspend (hsolvent.withSource.withIndex hshard _) hshard,
        (hsource.withIndex hlt _ _).acceptRecord r a position⟩

theorem Prepaid.congr (h : Prepaid X s) (hconfig : t.config = s.config)
    (hsegments : t.segments = s.segments) (hprojected : t.projectedBytes = s.projectedBytes)
    (hcut : t.cutReservedBytes = s.cutReservedBytes) (hlimit : s.writeLimitBytes ≤ t.writeLimitBytes)
    (hmaximum : t.writeLimitBytes ≤ s.config.maximumBytes.toNat) (hsources : t.sources = s.sources)
    (hstates : t.sourceStates = s.sourceStates) (hindex : t.index = s.index)
    (hgaps : t.gaps.length ≤ t.maximumGapRecords)
    (hrecords : t.maximumGapRecords = s.maximumGapRecords) (hblocks : t.blocks = s.blocks)
    (hreference : t.referencePayload = s.referencePayload)
    (hreserved : t.referenceReservedBytes = s.referenceReservedBytes) : Prepaid X t := by
  have hle := h.solvent.projected_le
  refine ⟨h.solvent.congr hconfig hsegments (by omega) hmaximum hindex (by omega) ?_, ?_⟩
  · rw [hsources, hblocks, hreserved, hcut]
  · obtain ⟨h1, h2, h3, -, h5, h6⟩ := h.sized
    exact ⟨by rwa [hsources], by rwa [hstates, hsources], by rwa [hindex], hgaps,
      by rwa [hrecords, hsources], by rwa [hreference, hreserved]⟩

variable {now : ℕ}

theorem Published.prepaid (hpublished : Published X s now result) (h : Prepaid X s) :
    Prepaid X result.2 := by
  cases hpublished with
  | failed _ hchanges => exact hchanges.prepaid h
  | published _ _ hflush =>
    have hu := (changes_flushAll hflush).prepaid h
    exact hu.congr rfl rfl rfl rfl le_rfl hu.solvent.limit_le rfl rfl rfl hu.sized.gaps_le rfl rfl
      rfl rfl

theorem Prepaid.completed (h : Prepaid X s) (reason : BinaryMarketStopReason)
    (finalizedReceiveNs : ℤ) : Prepaid X (completed s reason finalizedReceiveNs) :=
  h.congr rfl rfl rfl rfl le_rfl h.solvent.limit_le rfl rfl rfl h.sized.gaps_le rfl rfl rfl rfl

theorem Finalized.prepaid {reason : BinaryMarketStopReason} {finalizedReceiveNs : Int64}
    (hfinalized : Finalized X s reason finalizedReceiveNs now result) (h : Prepaid X s) :
    Prepaid X result.2 := by
  cases hfinalized with
  | failed _ hchanges => exact hchanges.prepaid h
  | unpublished _ hsealed _ hchanges =>
    exact hchanges.prepaid (((changes_seal hsealed).prepaid h).completed _ _)
  | @published u t _ _ hsealed hpublished =>
    have ht : Prepaid X t :=
      hpublished.prepaid (((changes_seal hsealed).prepaid h).completed reason finalizedReceiveNs.toInt)
    obtain ⟨disk, he | he⟩ := sealManifest_cases t <;> rw [he] <;>
      exact ht.congr rfl rfl rfl rfl le_rfl ht.solvent.limit_le rfl rfl rfl ht.sized.gaps_le rfl rfl
        rfl rfl

/-- Every call keeps the accounts, whatever it returns. -/
theorem Executed.prepaid {call : WriterCall} (hexecuted : Executed X s call result)
    (h : Prepaid X s) : Prepaid X result.2 := by
  cases hexecuted with
  | failed _ hchanges => exact hchanges.prepaid h
  | @registered _ added hcount _ hfit =>
    have hreserve : added.length * kSourceReservationBytes =
        3 * (added.length * kSourceStorageBytes) := Nat.mul_left_comm ..
    have hgrowth : added.length * (2 * kSourceStorageBytes) =
        2 * (added.length * kSourceStorageBytes) := Nat.mul_left_comm ..
    have hpaid : Solvent X _ (0 + added.length * (2 * kSourceStorageBytes)) _ :=
      h.solvent.afterPay hfit.2
    refine ⟨?_, ?_⟩
    · refine hpaid.congr rfl rfl hpaid.projected_le hpaid.limit_le rfl ?_ ?_ <;>
        simp only [afterRegister, withSources, List.length_append, Corpus.afterPay, Nat.add_mul] <;>
        omega
    · have hgaps := h.sized.gaps_le
      have hrecords := h.sized.gapRecords_eq
      refine ⟨?_, ?_, h.sized.index_le, ?_, rfl, h.sized.reference_le⟩
      · simpa [afterRegister, withSources, Corpus.afterPay] using hcount
      · simp [afterRegister, withSources, h.sized.sourceStates_eq, Corpus.afterPay]
      · simp only [afterRegister, withSources, List.length_append, Corpus.afterPay, Nat.add_mul]
        omega
  | appended happended => exact happended.prepaid h
  | gapTaken hgap =>
    cases hgap with
    | replaced =>
      exact h.congr rfl rfl rfl rfl le_rfl h.solvent.limit_le rfl rfl rfl
        (by simpa using h.sized.gaps_le) rfl rfl rfl rfl
    | added _ _ hroom =>
      exact h.congr rfl rfl rfl rfl le_rfl h.solvent.limit_le rfl rfl rfl
        (by simpa [Nat.add_one_le_iff] using hroom) rfl rfl rfl rfl
  | progressed =>
    exact h.congr rfl rfl rfl rfl le_rfl h.solvent.limit_le rfl rfl rfl h.sized.gaps_le rfl rfl rfl rfl
  | @referenced payload _ hquota =>
    have hpaid : Solvent X _ (0 + referenceGrowth s payload) _ := h.solvent.afterPay hquota
    refine ⟨?_, h.sized.1, h.sized.2, h.sized.3, h.sized.4, h.sized.5, le_max_right _ _⟩
    refine hpaid.congr rfl rfl hpaid.projected_le hpaid.limit_le rfl ?_ ?_
    · simp only [afterReference, Corpus.afterPay]
      omega
    · simp only [afterReference, Corpus.afterPay, referenceGrowth]
      omega
  | published hpublished => exact hpublished.prepaid h
  | draining =>
    exact h.congr rfl rfl rfl rfl h.solvent.limit_le le_rfl rfl rfl rfl h.sized.gaps_le rfl rfl rfl rfl
  | finalized hfinalized => exact hfinalized.prepaid h

theorem Prepaid.withFaults (h : Prepaid X s) (faults : List (Option ℕ)) :
    Prepaid X (s.withFaults faults) :=
  (Change.disk s _).changes.prepaid h

theorem Prepaid.execWith (h : Prepaid X s) (call : WriterCall) (faults : List (Option ℕ)) :
    Prepaid X (execWith X s call faults).2 :=
  (executed_exec (h.withFaults faults).sized.sources_le call).prepaid (h.withFaults faults)

theorem Prepaid.runWith (h : Prepaid X s) (calls : List (WriterCall × List (Option ℕ))) :
    Prepaid X (runWith X s calls) := by
  induction calls generalizing s with
  | nil => exact h
  | cons call calls ih => exact ih (h.execWith call.1 call.2)

/-- A writer that was just started. -/
theorem prepaid_start {config : BinaryMarketWriterConfig} {root : RootEntry}
    {faults : List (Option ℕ)} (h : start X config root faults = (.ok, some s)) : Prepaid X s := by
  obtain ⟨hvalid, budget, u, hbudget, hchanges, rfl⟩ := changes_start h
  have hspec := startBudget_spec hbudget
  have hmetadata := hspec.metadata
  have hcut := hspec.cutReserve
  have hminimum := hspec.minimum
  have hmaximum : config.sources.length ≤ kBinaryMarketMaximumSources := by
    unfold validWriterConfig at hvalid
    simp only [Bool.and_eq_true, Bool.not_eq_true', Bool.or_eq_false_iff, decide_eq_false_iff_not,
      not_lt] at hvalid
    exact hvalid.1.2
  have hsum : ∀ f : SegmentState → ℕ, f {} = 0 →
      shardSum (initialState config budget ⟨∅, faults⟩) f = 0 := fun f hf =>
    Finset.sum_eq_zero fun _ _ => hf
  have hinitial : Prepaid X (initialState config budget ⟨∅, faults⟩) := by
    refine ⟨⟨?_, ?_, ?_, Nat.sub_le _ _⟩, hmaximum, List.length_map .., Nat.zero_le _,
      Nat.zero_le _, hspec.gapRecords, Nat.zero_le _⟩
    · rw [hsum _ (by simp [SegmentState.heldBytes])]
      change fixedMetadataBytes + 0 * 72 + 0 + budget.initialCutReserve + 0 ≤
        budget.fixedMetadata + 0
      omega
    · rw [cutBytes, pendingRecords, hsum _ rfl]
      change 2 * (kCutHeaderReserveBytes + config.sources.length * kSourceStorageBytes +
        (0 + 0) * 96 + 0) + 0 ≤ budget.initialCutReserve
      omega
    · change budget.fixedMetadata ≤ config.maximumBytes.toNat - budget.finalDrainReserve
      omega
  have hu := hchanges.prepaid hinitial
  exact hu.congr rfl rfl rfl rfl le_rfl hu.solvent.limit_le rfl rfl rfl hu.sized.gaps_le rfl rfl rfl
    rfl

/-! ## The reservation test -/

theorem addProduct_of_le {bytes count unitBytes : ℕ} (h : bytes + count * unitBytes ≤ maximumUInt64) :
    addProduct bytes count unitBytes = some (bytes + count * unitBytes) := by
  unfold addProduct
  refine if_neg fun hover => ?_
  have := (Nat.div_lt_iff_lt_mul (Nat.pos_of_ne_zero hover.1)).mp hover.2
  omega

theorem cutReservationBytes_of_le {sources gaps blocks referenceBytes : ℕ}
    (h : 2 * (kCutHeaderReserveBytes + sources * 272 + gaps * 80 + blocks * 96 + referenceBytes) ≤
      maximumUInt64) :
    cutReservationBytes sources gaps blocks referenceBytes = some
      (2 * (kCutHeaderReserveBytes + sources * 272 + gaps * 80 + blocks * 96 + referenceBytes)) := by
  unfold cutReservationBytes
  simp only [Option.bind_eq_bind]
  rw [addProduct_of_le (by omega), Option.bind_some, addProduct_of_le (by omega), Option.bind_some,
    addProduct_of_le (by omega), Option.bind_some, addProduct_of_le (by omega), Option.bind_some,
    if_neg (by omega), Nat.mul_one, Nat.mul_comm]

theorem Prepaid.cutReserved (h : Prepaid X s) : CutReserved s := by
  have hstorage : kSourceStorageBytes = 992 := rfl
  have hchannels : kBinaryMarketStoredChannelCount = 9 := rfl
  have hgaps := h.sized.gaps_le
  rw [h.sized.gapRecords_eq, hchannels] at hgaps
  have hreference := h.sized.reference_le
  have hcut := h.solvent.cut_le
  have hheld := h.solvent.held_le
  have hlt := h.solvent.projected_lt
  have hmaximum : maximumUInt64 = 2 ^ 64 - 1 := rfl
  unfold cutBytes at hcut
  rw [hstorage, Nat.add_mul] at hcut
  have hle : 2 * (kCutHeaderReserveBytes + s.sources.length * 272 + s.gaps.length * 80 +
      s.blocks.length * 96 + s.referencePayload.length) ≤ s.cutReservedBytes := by
    omega
  exact ⟨_, cutReservationBytes_of_le (by omega), hle⟩

theorem publishCut_corruptData (h : Prepaid X s) (hstatus : (publishCut X s now).1 = .corruptData) :
    ∃ u, flushAndSyncShards X s.shards s = (true, u) ∧
      bindReference u (currentCut u now) = .error .corruptData := by
  unfold publishCut at hstatus
  split at hstatus
  · cases hstatus
  split at hstatus
  · cases hstatus
  rename_i u hu
  obtain ⟨required, hrequired, hle⟩ := ((changes_flushAll hu).prepaid h).cutReserved
  unfold commitCut at hstatus
  rw [hrequired] at hstatus
  dsimp only at hstatus
  rw [if_neg (by omega)] at hstatus
  split at hstatus
  · rename_i status hbind
    cases hstatus
    exact ⟨u, hu, hbind⟩
  · split at hstatus <;> cases hstatus

/-- The reservation test of a publication in the state does not fail: a flush of all segments leaves
a cut that the reservation covers, and a `CorruptData` is the reference binder's. -/
structure PublicationFunded (X : Platform) (s : WriterState) : Prop where
  reserved : ∀ u, flushAndSyncShards X s.shards s = (true, u) →
    ∃ required, cutReservationBytes u.sources.length u.gaps.length u.blocks.length
      u.referencePayload.length = some required ∧ required ≤ u.cutReservedBytes
  corruptData : ∀ now, (publishCut X s now).1 = .corruptData →
    ∃ u, flushAndSyncShards X s.shards s = (true, u) ∧
      bindReference u (currentCut u now) = .error .corruptData

theorem Prepaid.publicationFunded (h : Prepaid X s) : PublicationFunded X s :=
  ⟨fun _ hu => ((changes_flushAll hu).prepaid h).cutReserved, fun _ => publishCut_corruptData h⟩

/-- In every state that a writer reaches, whatever its directory operations meet, the reservation test
of `publishCut` does not fail, and neither does that of the publication in `finalize`. -/
theorem publication_within_reservation {config : BinaryMarketWriterConfig} {root : RootEntry}
    {faults : List (Option ℕ)} (hstart : start X config root faults = (.ok, some s))
    (calls : List (WriterCall × List (Option ℕ))) (outcomes : List (Option ℕ)) :
    PublicationFunded X ((runWith X s calls).withFaults outcomes) ∧
      ∀ reason finalizedReceiveNs u,
        andThen (sealShards X ((runWith X s calls).withFaults outcomes).shards
          ((runWith X s calls).withFaults outcomes)) writeTables = (true, u) →
        PublicationFunded X (completed u reason finalizedReceiveNs) := by
  have h := ((prepaid_start hstart).runWith calls).withFaults outcomes
  exact ⟨h.publicationFunded, fun reason finalizedReceiveNs u hu =>
    (((changes_seal hu).prepaid h).completed reason finalizedReceiveNs).publicationFunded⟩

/-- Two records in two blocks, the second one flushed by a publication whose cut is not replaced, and a
reference payload that grows and shrinks. -/
def failedPublication : List (WriterCall × List (Option ℕ)) :=
  [(.append (smallRecord 10 10 1 0), []), (.publishCut 1, []),
    (.setReferencePayload [1, 2, 3], []), (.setReferencePayload [1], []),
    (.append (smallRecord 20 20 2 0), []), (.publishCut 2, [none, none, none, some 0])]

theorem publication_within_reservation_failed :
    (runWith .stored smallStart failedPublication).active = true ∧
      (runWith .stored smallStart failedPublication).blocks.length = 2 ∧
      (runWith .stored smallStart failedPublication).cutGeneration = 1 ∧
      PublicationFunded .stored ((runWith .stored smallStart failedPublication).withFaults []) := by
  refine ⟨?_, ?_, ?_, (publication_within_reservation start_smallConfig failedPublication []).1⟩
  · decide +kernel
  · decide +kernel
  · decide +kernel

end HftRecorder.Corpus
