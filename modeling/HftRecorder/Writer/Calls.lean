import HftRecorder.Writer.Appending

/-!
# What the calls do

One theorem for each call of the writer that does not go to the segments, and one for the last step of
`append`: the state that it leaves is the state before or one explicit state. Invariants of the writer
are proved from these, without looking at the calls' definitions again.
-/

namespace HftRecorder.Corpus

open ByteLayout Codec

variable {X : Platform} {s t u : WriterState}

/-! ## Storing a record -/

/-- The state with the catalogue entry that a record adds, if any. -/
def withSource (s : WriterState) (a : Admission) : WriterState :=
  match a.addedSource with
  | some source => addSource s source a.prospective
  | none => s

def IndexFull (s : WriterState) : Prop :=
  s.index.length ≥ s.config.maximumBytes.toNat / 72 ∨ s.index.length ≥ maximumUInt32

/-- The state with a new index entry for a record of a shard's segment. -/
def withIndex (s : WriterState) (shard : ℕ) (key : IndexKey) : WriterState :=
  let segment := s.segments shard
  { s with
    index := s.index ++ [BinaryMarketIndexEntry.fresh segment.header.segmentNumber shard key.sourceId
      key.sourceGeneration key.channel]
    segments := Function.update s.segments shard
      { segment with
        indexPositions := Function.update segment.indexPositions key (some s.index.length) } }

theorem withIndex_segments_self {s : WriterState} {shard : ℕ} {key : IndexKey} :
    (withIndex s shard key).segments shard =
      { s.segments shard with
        indexPositions := Function.update (s.segments shard).indexPositions key
          (some s.index.length) } := Function.update_self ..

theorem withIndex_segments_of_ne {s : WriterState} {shard k : ℕ} {key : IndexKey}
    (hk : k ≠ shard) : (withIndex s shard key).segments k = s.segments k :=
  Function.update_of_ne hk ..

@[simp]
theorem withSource_segments (s : WriterState) (a : Admission) :
    (withSource s a).segments = s.segments := by
  unfold withSource
  split <;> rfl

@[simp]
theorem withSource_index (s : WriterState) (a : Admission) : (withSource s a).index = s.index := by
  unfold withSource
  split <;> rfl

@[simp]
theorem withSource_config (s : WriterState) (a : Admission) :
    (withSource s a).config = s.config := by
  unfold withSource
  split <;> rfl

@[simp]
theorem withSource_quotaReached (s : WriterState) (a : Admission) :
    (withSource s a).quotaReached = s.quotaReached := by
  unfold withSource
  split <;> rfl

section

variable (X : Platform) (segment : SegmentState) (r : BinaryMarketRecord)

@[simp]
theorem accept_isOpen : (segment.accept X r).isOpen = segment.isOpen := by
  cases segment; rfl

@[simp]
theorem accept_pending : (segment.accept X r).pending = segment.pending ++ [r] := by
  cases segment; rfl

end

theorem ensureIndex_cases (s : WriterState) (shard : ℕ) (key : IndexKey) :
    (∃ position, (s.segments shard).indexPositions key = some position ∧
      ensureIndex s shard key = (some position, s)) ∨
    ((s.segments shard).indexPositions key = none ∧ ¬IndexFull s ∧
      ensureIndex s shard key = (some s.index.length, withIndex s shard key)) ∨
    ((s.segments shard).indexPositions key = none ∧ IndexFull s ∧
      ensureIndex s shard key = (none, s)) := by
  unfold ensureIndex
  cases hp : (s.segments shard).indexPositions key with
  | some position => exact .inl ⟨position, rfl, by simp [hp]⟩
  | none =>
    right
    by_cases hfull : IndexFull s
    · exact .inr ⟨rfl, hfull, by simp only [hp]; exact if_pos hfull⟩
    · exact .inl ⟨rfl, hfull, by simp only [hp]; exact if_neg hfull⟩

/-- The last step of `append`: the record is counted in the index entry that its segment has for it,
or in a new one, or the index is full. -/
theorem storeRecord_cases (X : Platform) (s : WriterState) (r : BinaryMarketRecord)
    (a : Admission) :
    (∃ position, (s.segments r.shardIndex).indexPositions r.indexKey = some position ∧
      storeRecord X s r a = (.ok, acceptRecord X (withSource s a) r a position)) ∨
    ((s.segments r.shardIndex).indexPositions r.indexKey = none ∧ ¬IndexFull s ∧
      storeRecord X s r a = (.ok, acceptRecord X
        (withIndex (withSource s a) r.shardIndex r.indexKey) r a s.index.length)) ∨
    ((s.segments r.shardIndex).indexPositions r.indexKey = none ∧ IndexFull s ∧
      storeRecord X s r a =
        (if s.quotaReached then .outOfRange else .ioError, withSource s a)) := by
  have hstore : ∀ {position t}, ensureIndex (withSource s a) r.shardIndex r.indexKey = (position, t) →
      storeRecord X s r a = position.elim (if t.quotaReached then .outOfRange else .ioError, t)
        fun position => (.ok, acceptRecord X t r a position) := by
    intro position t he
    unfold withSource at he
    unfold storeRecord
    cases ha : a.addedSource <;> rw [ha] at he <;> dsimp only at he ⊢ <;> rw [he] <;>
      cases position <;> rfl
  have hfull : IndexFull (withSource s a) ↔ IndexFull s := by simp [IndexFull]
  have h := ensureIndex_cases (withSource s a) r.shardIndex r.indexKey
  rw [hfull, withSource_segments, withSource_index] at h
  rcases h with ⟨position, hp, he⟩ | ⟨hp, hf, he⟩ | ⟨hp, hf, he⟩ <;>
    rw [hstore he]
  · exact .inl ⟨position, hp, rfl⟩
  · exact .inr (.inl ⟨hp, hf, rfl⟩)
  · exact .inr (.inr ⟨hp, hf, by simp⟩)

/-! ## Registering sources -/

/-- The state with the given sources at the end of the catalogue, each in its initial state. -/
def withSources (s : WriterState) (added : List BinaryMarketSource) : WriterState :=
  { s with
    sources := s.sources ++ added
    sourceStates := s.sourceStates ++ added.map initialBinaryMarketSourceState }

/-- The sources of a registration that passes its tests are added with consecutive ids. -/
theorem addSources_eq {registered : List BinaryMarketSource} (l : List BinaryMarketSource)
    {count n : ℕ} (h : registeredCount registered count l = some n)
    (hr : registered.length ≤ count) (hmax : count ≤ kBinaryMarketMaximumSources) :
    ∃ added, (∀ s : WriterState, s.sources.length = count →
        addSources s l = withSources s added) ∧
      count + added.length = n ∧ n ≤ kBinaryMarketMaximumSources ∧
      ∀ i source, added[i]? = some source →
        ∃ given, source = registeredSource given ∧ validBinaryMarketSource given (count + i) := by
  induction l generalizing count with
  | nil =>
    cases h
    exact ⟨[], fun s _ => by simp [addSources, withSources], by simp, hmax, by simp⟩
  | cons source rest ih =>
    rw [registeredCount] at h
    split at h
    · cases h
    rename_i hvalid
    split at h
    · -- A source that is registered already has an id below the catalogue's size.
      rename_i known hknown
      split_ifs at h
      obtain ⟨added, hadd, hrest⟩ := ih h hr hmax
      refine ⟨added, ?_, hrest⟩
      intro s hs
      have hid : source.sourceId ≤ s.sources.length := by
        have := (List.getElem?_eq_some_iff.mp hknown).1
        omega
      rw [addSources, if_pos hid]
      exact hadd s hs
    · split_ifs at h with hnew
      obtain ⟨added, hadd, hlen, hn, hspec⟩ := ih h (by omega) (by omega)
      refine ⟨registeredSource source :: added, ?_, ?_, hn, ?_⟩
      · intro s hs
        rw [addSources, if_neg (by omega)]
        refine (hadd (withSources s [registeredSource source]) ?_).trans ?_
        · simp [withSources, hs]
        · simp [withSources]
      · rw [List.length_cons]
        omega
      · intro i src hi
        cases i with
        | zero =>
          simp only [List.getElem?_cons_zero, Option.some.injEq] at hi
          refine ⟨source, hi.symm, ?_⟩
          simp only [not_or, Bool.not_eq_true', Bool.not_eq_false] at hvalid
          rw [hnew.1, Nat.add_sub_cancel] at hvalid
          exact hvalid.2
        | succ i =>
          rw [List.getElem?_cons_succ] at hi
          obtain ⟨given, hg, hv⟩ := hspec i src hi
          refine ⟨given, hg, ?_⟩
          rwa [Nat.add_right_comm] at hv

/-- The state after a registration of the given new sources. -/
def afterRegister (s : WriterState) (added : List BinaryMarketSource) : WriterState :=
  let s := withSources (afterPay s (added.length * kSourceReservationBytes)
    (added.length * (2 * kSourceStorageBytes))) added
  { s with
    manifest := { s.manifest with sourceCount := s.sources.length }
    maximumGapRecords := s.sources.length * kBinaryMarketStoredChannelCount }

/-- The room in the quota for a number of new sources. -/
def SourcesFit (s : WriterState) (count : ℕ) : Prop :=
  addWithin s.cutReservedBytes (count * (2 * kSourceStorageBytes)) maximumUInt64 = true ∧
    addWithin s.projectedBytes (count * kSourceReservationBytes) s.writeLimitBytes = true

/-- A registration is refused, or does not fit the quota, or adds its new sources. -/
theorem registerSources_cases (hs : s.sources.length ≤ kBinaryMarketMaximumSources)
    (l : List BinaryMarketSource) :
    registerSources s l = (.invalidArgument, s) ∨
    ∃ added, s.active = true ∧ l.length ≤ kBinaryMarketMaximumSources ∧
      registeredCount s.sources s.sources.length l = some (s.sources.length + added.length) ∧
      s.sources.length + added.length ≤ kBinaryMarketMaximumSources ∧
      (∀ i source, added[i]? = some source → ∃ given, source = registeredSource given ∧
        validBinaryMarketSource given (s.sources.length + i)) ∧
      ((¬SourcesFit s added.length ∧ registerSources s l = (.outOfRange, afterQuota s)) ∨
        (SourcesFit s added.length ∧ registerSources s l = (.ok, afterRegister s added))) := by
  unfold registerSources
  split
  · exact .inl rfl
  rename_i hactive
  rcases hcount : registeredCount s.sources s.sources.length l with _ | n
  · exact .inl rfl
  obtain ⟨added, hadd, hlen, hn, hspec⟩ := addSources_eq l hcount le_rfl hs
  right
  simp only [Bool.not_eq_true', not_or, Bool.not_eq_false, not_lt] at hactive
  refine ⟨added, hactive.1, hactive.2, by rw [hlen], by omega, hspec, ?_⟩
  have hadded : n - s.sources.length = added.length := by omega
  have hbound : kBinaryMarketMaximumSources = 65536 := rfl
  have hsmall : added.length ≤ 65536 := by omega
  have hreserve : addProduct 0 added.length kSourceReservationBytes =
      some (added.length * kSourceReservationBytes) := by
    have hk : kSourceReservationBytes = 2976 := rfl
    rw [addProduct_eq (Nat.zero_le _), charge, zero_add, if_pos]
    rw [hk, maximumUInt64]
    omega
  have hgrowth : addProduct 0 added.length (2 * kSourceStorageBytes) =
      some (added.length * (2 * kSourceStorageBytes)) := by
    have hk : 2 * kSourceStorageBytes = 1984 := rfl
    rw [addProduct_eq (Nat.zero_le _), charge, zero_add, if_pos]
    rw [hk, maximumUInt64]
    omega
  simp only [hadded, hreserve, hgrowth]
  -- Both prices are numbers of 64 bits, so that the quota alone decides.
  by_cases hfit : SourcesFit s added.length
  · right
    refine ⟨hfit, ?_⟩
    obtain ⟨hcut, hquota⟩ := hfit
    rw [if_neg (by simp [hcut, hquota]), reserveBytes_eq, if_pos hquota]
    have h := hadd (afterPay s (added.length * kSourceReservationBytes)
      (added.length * (2 * kSourceStorageBytes))) rfl
    dsimp only
    rw [afterRegister, ← h]
    rfl
  · left
    refine ⟨hfit, ?_⟩
    rw [if_pos]
    · rfl
    · by_contra hno
      simp only [not_or, Bool.not_eq_true', Bool.not_eq_false] at hno
      exact hfit hno

/-! ## The reference payload, gaps, and progress -/

/-- The bytes that a reference payload needs beyond those reserved before, for both cut files. -/
def referenceGrowth (s : WriterState) (payload : Bytes) : ℕ :=
  (payload.length - s.referenceReservedBytes) * 2

/-- The state after the reference payload is set. -/
def afterReference (s : WriterState) (payload : Bytes) : WriterState :=
  { afterPay s (referenceGrowth s payload) (referenceGrowth s payload) with
    referenceReservedBytes := max s.referenceReservedBytes payload.length
    referencePayload := payload }

/-- A reference payload is refused, or does not fit the quota, or is set. -/
theorem setReferencePayload_cases (s : WriterState) (payload : Bytes) :
    setReferencePayload s payload = (.invalidArgument, s) ∨
    setReferencePayload s payload = (.outOfRange, afterQuota s) ∨
    (s.active = true ∧ payload.length ≤ kCorpusMaximumReferenceBytes ∧
      addWithin s.projectedBytes (referenceGrowth s payload) s.writeLimitBytes = true ∧
      setReferencePayload s payload = (.ok, afterReference s payload)) := by
  unfold setReferencePayload
  split
  · exact .inl rfl
  rename_i hvalid
  simp only [Bool.not_eq_true', not_or, Bool.not_eq_false, not_lt] at hvalid
  have hlimit : kCorpusMaximumReferenceBytes = 134217728 := rfl
  have hgrowth : addProduct 0 (payload.length - s.referenceReservedBytes) 2 =
      some (referenceGrowth s payload) := by
    rw [addProduct_eq (Nat.zero_le _), charge, zero_add, if_pos, referenceGrowth]
    rw [maximumUInt64]
    omega
  right
  simp only [hgrowth]
  cases hquota : addWithin s.projectedBytes (referenceGrowth s payload) s.writeLimitBytes with
  | false => exact .inl (if_pos (by simp))
  | true =>
    cases hcut : addWithin s.cutReservedBytes (referenceGrowth s payload) maximumUInt64 with
    | false => exact .inl (if_pos (by simp))
    | true =>
      refine .inr ⟨hvalid.1, hvalid.2.2, rfl, ?_⟩
      rw [if_neg (by simp), reserveBytes_eq, if_pos hquota]
      rfl

theorem beginFinalDrain_cases (s : WriterState) :
    beginFinalDrain s = (.invalidArgument, s) ∨
    (s.active = true ∧
      beginFinalDrain s = (.ok, { s with writeLimitBytes := s.config.maximumBytes.toNat })) := by
  unfold beginFinalDrain
  split
  · exact .inl rfl
  · exact .inr ⟨by simp_all, rfl⟩

/-! ## Publishing a cut -/

/-- The reservation covers the cut of the state. -/
def CutReserved (s : WriterState) : Prop :=
  ∃ required, cutReservationBytes s.sources.length s.gaps.length s.blocks.length
    s.referencePayload.length = some required ∧ required ≤ s.cutReservedBytes

/-- The binder changes the reference payload of a cut only. -/
theorem bindReference_eq {cut later : CorpusCut} (h : bindReference s cut = .ok later) :
    later = { cut with referencePayload := later.referencePayload } := by
  unfold bindReference at h
  split at h
  · cases h
    rfl
  dsimp only at h
  split at h
  · split_ifs at h
    cases h
    rfl
  · cases h

theorem bindReference_error_ne {cut : CorpusCut} {status : Status}
    (h : bindReference s cut = .error status) : status ≠ .ok := by
  unfold bindReference at h
  split at h
  · cases h
  · dsimp only at h
    split at h
    · split_ifs at h <;> cases h <;> decide
    · rename_i hne heq
      cases h
      rintro rfl
      exact hne rfl

end HftRecorder.Corpus
