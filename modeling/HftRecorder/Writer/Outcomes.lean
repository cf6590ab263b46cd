import HftRecorder.Writer.Changes

/-!
# What the writer's calls can do, whatever the directory does

A call makes changes to segments and takes something in, or it stops on the way. `Appended`,
`Published`, and `Finalized` say what `append`, `publishCut`, and `finalize` return and leave, and
`Executed` says it of every call. The relations have every case of the code, failures included, and
invariants over runs with I/O failures are proved by cases on them.
-/

namespace HftRecorder.Corpus

open ByteLayout Codec

variable {X : Platform} {s t u : WriterState} {shard : ℕ}

/-! ## Start -/

theorem changes_start {config : BinaryMarketWriterConfig} {root : RootEntry}
    {faults : List (Option ℕ)} (h : start X config root faults = (.ok, some s)) :
    validWriterConfig config = true ∧ ∃ budget u, startBudget X config = some budget ∧
      Changes X (initialState config budget ⟨∅, faults⟩) u ∧ s = { u with active := true } := by
  unfold start at h
  split at h
  · cases h
  rename_i hvalid
  split at h
  · cases h
  rename_i budget hbudget
  split at h
  · cases h
  have hdirectory := changes_startDirectory (X := X) (initialState config budget ⟨∅, faults⟩) root
  split at h
  · rename_i u hu
    rw [hu] at hdirectory
    cases h
    rw [Bool.not_eq_true', Bool.not_eq_false] at hvalid
    exact ⟨hvalid, budget, u, hbudget, hdirectory, rfl⟩
  · cases h

/-! ## Appending -/

variable {r : BinaryMarketRecord} {a : Admission}

/-- Paying flushes if it has to, and then the bytes are reserved or the quota is reached. -/
theorem changes_payForRecord (X : Platform) (s : WriterState) (bytes growth : ℕ) :
    ∃ v, Flushes X s v ∧ (∀ k, (v.segments k).isOpen = (s.segments k).isOpen) ∧
      v.quotaReached = s.quotaReached ∧
      (payForRecord X s bytes growth = (.ioError, v) ∨
        payForRecord X s bytes growth = (.outOfRange, afterQuota v) ∨
        (addWithin v.projectedBytes bytes v.writeLimitBytes = true ∧
          payForRecord X s bytes growth = (.ok, afterPay v bytes growth))) := by
  unfold payForRecord
  split_ifs with hfit
  · refine ⟨s, .refl s, fun _ => rfl, rfl, .inr (.inr ⟨hfit, ?_⟩)⟩
    dsimp only
    rw [reserveBytes_eq, if_pos hfit]
    rfl
  · have hflush := flushes_flushShards (X := X) s.shards fun k hk => List.mem_range.mp hk
    have hopen := flushShards_isOpen X s.shards s
    have hquota := quotaReached_flushShards (X := X) (s := s) rfl s.shards
    revert hflush hopen hquota
    rcases flushShards X s.shards s with ⟨ok, v⟩
    intro hflush hopen hquota
    refine ⟨v, hflush, hopen, hquota, ?_⟩
    cases ok with
    | false => exact .inl rfl
    | true =>
      right
      dsimp only
      cases hv : addWithin v.projectedBytes bytes v.writeLimitBytes with
      | true =>
        rw [reserveBytes_eq, if_pos hv]
        exact .inr ⟨rfl, rfl⟩
      | false =>
        rw [reserveBytes_eq, if_neg (by simp [hv])]
        exact .inl rfl

/-- The segment is sealed and the next one opened, as the record needs it. A segment that was not
replaced is open still. -/
theorem prepared_prepareSegment (X : Platform) (s : WriterState) (shard : ℕ) (rotate openNew : Bool)
    (hopen : openNew = false → rotate = false ∧ (s.segments shard).isOpen = true) :
    Prepared X s shard (prepareSegment X s shard rotate openNew) ∧
      ((prepareSegment X s shard rotate openNew).1 = true →
        ((prepareSegment X s shard rotate openNew).2.segments shard).isOpen = true) := by
  unfold prepareSegment
  refine ⟨Changes.andThenPrepared ?_ fun _ => ?_, fun h => ?_⟩
  · cases rotate
    · exact .refl s
    · exact changes_sealSegment X s shard
  · cases openNew
    · exact .kept (.refl _)
    · exact prepared_openSegment X _ shard
  · cases openNew with
    | false =>
      obtain ⟨rfl, ho⟩ := hopen rfl
      exact ho
    | true =>
      obtain ⟨-, heq⟩ := both_of_andThen h
      rw [heq] at h ⊢
      exact openSegment_isOpen h

theorem quotaReached_prepareSegment (X : Platform) (s : WriterState) (shard : ℕ)
    (rotate openNew : Bool) :
    (prepareSegment X s shard rotate openNew).2.quotaReached = s.quotaReached := by
  unfold prepareSegment
  refine quotaReached_andThen ?_ fun t ht => ?_
  · cases rotate
    · rfl
    · exact quotaReached_sealSegment rfl shard
  · cases openNew
    · exact ht
    · exact quotaReached_openSegment ht shard

/-- The state `u`, which changes lead to, can pay the price of a record, with that of an index entry
if it needs one. -/
structure Payable (X : Platform) (s u : WriterState) (a : Admission) (bytes : ℕ) (newIndex : Bool) :
    Prop where
  flushes : Flushes X s u
  cost : ∃ openNew, bytes = recordCost X a.addedSource.isSome openNew newIndex
  cut : addWithin u.cutReservedBytes (recordGrowth a.addedSource.isSome) maximumUInt64 = true
  quota : addWithin u.projectedBytes bytes u.writeLimitBytes = true

theorem Payable.changes {s u : WriterState} {a : Admission} {bytes : ℕ} {newIndex : Bool}
    (h : Payable X s u a bytes newIndex) : Changes X s u := h.flushes.changes

/-- The state with the record's price paid. -/
def afterPrice (u : WriterState) (a : Admission) (bytes : ℕ) : WriterState :=
  afterPay u bytes (recordGrowth a.addedSource.isSome)

/-- The flush that `append` begins with, if the record cannot join the pending block. -/
def flushedFor (X : Platform) (s : WriterState) (r : BinaryMarketRecord) : Bool × WriterState :=
  if flushNeeded (s.segments r.shardIndex) r then flushBlock X s r.shardIndex else (true, s)

/-- The record passes the tests of `append` and its price fits the quota, and its segment has no index
entry for it or is to be replaced. -/
def needsEntry (X : Platform) (s : WriterState) (r : BinaryMarketRecord) : Bool :=
  match admitRecord X s r, flushedFor X s r with
  | .ok a, (true, t) =>
    match requiredBytes X t r a.addedSource.isSome with
    | some bytes =>
      indexNeeded X t r &&
        addWithin t.cutReservedBytes (recordGrowth a.addedSource.isSome) maximumUInt64 &&
        (payForRecord X t bytes (recordGrowth a.addedSource.isSome)).1 = .ok
    | none => false
  | _, _ => false

/-- What a call of `append` returns and leaves. -/
inductive Appended (X : Platform) (s : WriterState) (r : BinaryMarketRecord) :
    Status × WriterState → Prop
  /-- A test refuses the record. -/
  | refused {status : Status} (h : admitRecord X s r = .error status) : Appended X s r (status, s)
  /-- A flush fails, or the quota is reached. -/
  | unpaid {status : Status} {t : WriterState} (hne : status ≠ .ok) (h : Flushes X s t) :
      Appended X s r (status, t)
  /-- The record is paid for, and its segment cannot be sealed or opened. -/
  | unstored {a : Admission} {bytes : ℕ} {newIndex : Bool} {u v : WriterState}
      (ha : admitRecord X s r = .ok a) (hpay : Payable X s u a bytes newIndex)
      (h : Changes X (afterPrice u a bytes) v) : Appended X s r (.ioError, v)
  /-- The index is full, and a new source stays in the catalogue. -/
  | unindexed {a : Admission} {bytes : ℕ} {u v : WriterState}
      (ha : admitRecord X s r = .ok a) (hpay : Payable X s u a bytes true)
      (h : Prepared X (afterPrice u a bytes) r.shardIndex (true, v)) (hfull : IndexFull v)
      (hneeds : needsEntry X s r = true) :
      Appended X s r (if s.quotaReached then .outOfRange else .ioError, withSource v a)
  /-- The record is stored. -/
  | stored {a : Admission} {bytes position : ℕ} {newIndex : Bool} {u v w : WriterState}
      (ha : admitRecord X s r = .ok a) (hpay : Payable X s u a bytes newIndex)
      (h : Prepared X (afterPrice u a bytes) r.shardIndex (true, v))
      (hopen : (v.segments r.shardIndex).isOpen = true)
      (hroom : (v.segments r.shardIndex).pending = [] ∨
        ((v.segments r.shardIndex).pending = (s.segments r.shardIndex).pending ∧
          flushNeeded (s.segments r.shardIndex) r = false))
      (hindex : ((v.segments r.shardIndex).indexPositions r.indexKey = some position ∧
          w = withSource v a) ∨
        (newIndex = true ∧ ¬IndexFull v ∧ position = v.index.length ∧
          w = withIndex (withSource v a) r.shardIndex r.indexKey)) :
      Appended X s r (.ok, acceptRecord X w r a position)

/-- The last step of `append`, whose price has that of a new index entry if there is to be one. -/
theorem appended_storeRecord {bytes : ℕ} {newIndex : Bool} {v : WriterState}
    (ha : admitRecord X s r = .ok a) (hpay : Payable X s u a bytes newIndex)
    (h : Prepared X (afterPrice u a bytes) r.shardIndex (true, v))
    (hopen : (v.segments r.shardIndex).isOpen = true)
    (hroom : (v.segments r.shardIndex).pending = [] ∨
      ((v.segments r.shardIndex).pending = (s.segments r.shardIndex).pending ∧
        flushNeeded (s.segments r.shardIndex) r = false))
    (hnew : (v.segments r.shardIndex).indexPositions r.indexKey = none → newIndex = true)
    (hneeds : newIndex = true → needsEntry X s r = true)
    (hquota : v.quotaReached = s.quotaReached) : Appended X s r (storeRecord X v r a) := by
  rcases storeRecord_cases X v r a with ⟨position, hp, he⟩ | ⟨hp, hfull, he⟩ | ⟨hp, hfull, he⟩ <;>
    rw [he]
  · exact .stored ha hpay h hopen hroom (.inl ⟨hp, rfl⟩)
  · exact .stored ha hpay h hopen hroom (.inr ⟨hnew hp, hfull, rfl, rfl⟩)
  · obtain rfl := hnew hp
    rw [hquota]
    exact .unindexed ha hpay h hfull (hneeds rfl)

theorem flushedFor_spec (X : Platform) (s : WriterState) (r : BinaryMarketRecord)
    (hshard : r.shardIndex < s.shardCount) :
    Flushes X s (flushedFor X s r).2 ∧ (flushedFor X s r).2.quotaReached = s.quotaReached ∧
      ((flushedFor X s r).1 = true →
        ((flushedFor X s r).2.segments r.shardIndex).pending = [] ∨
          flushNeeded (s.segments r.shardIndex) r = false) := by
  unfold flushedFor
  split
  · rename_i hneeded
    have hopen : (s.segments r.shardIndex).isOpen = true := by
      unfold flushNeeded at hneeded
      split at hneeded
      · cases hneeded
      · exact (Bool.and_eq_true_iff.mp hneeded).1
    exact ⟨flushes_flushBlock hshard hopen, quotaReached_flushBlock rfl _,
      fun hok => .inl (flushBlock_pending hok)⟩
  · rename_i hneeded
    exact ⟨.refl s, rfl, fun _ => .inr (Bool.not_eq_true _ ▸ hneeded)⟩

/-- The record is admitted, the first flush leads to `t`, and paying for the record to `u`. -/
structure Paid (X : Platform) (s : WriterState) (r : BinaryMarketRecord) (a : Admission) (bytes : ℕ)
    (t u : WriterState) : Prop where
  admitted : admitRecord X s r = .ok a
  flushed : flushedFor X s r = (true, t)
  required : requiredBytes X t r a.addedSource.isSome = some bytes
  cut : addWithin t.cutReservedBytes (recordGrowth a.addedSource.isSome) maximumUInt64 = true
  paid : payForRecord X t bytes (recordGrowth a.addedSource.isSome) = (.ok, afterPrice u a bytes)
  flushes : Flushes X t u
  isOpen : ∀ k, (u.segments k).isOpen = (t.segments k).isOpen
  quota_eq : u.quotaReached = t.quotaReached
  quota : addWithin u.projectedBytes bytes u.writeLimitBytes = true

section Paid

variable {bytes : ℕ} {v : WriterState}

theorem Paid.flushed_spec (h : Paid X s r a bytes t u) :
    Flushes X s t ∧ t.quotaReached = s.quotaReached ∧
      ((t.segments r.shardIndex).pending = [] ∨ flushNeeded (s.segments r.shardIndex) r = false) := by
  obtain ⟨hflushes, hquota, hempty⟩ :=
    flushedFor_spec X s r (admitted_of_ok h.admitted).shard_lt
  rw [h.flushed] at hflushes hquota hempty
  exact ⟨hflushes, hquota, hempty rfl⟩

theorem Paid.payable (h : Paid X s r a bytes t u) : Payable X s u a bytes (indexNeeded X t r) := by
  have hcost : bytes = recordCost X a.addedSource.isSome (openNeeded X t r.shardIndex)
      (indexNeeded X t r) := by
    have hbytes := h.required
    rw [requiredBytes_eq] at hbytes
    split_ifs at hbytes
    unfold charge at hbytes
    split_ifs at hbytes
    simpa using hbytes.symm
  refine ⟨h.flushed_spec.1.trans h.flushes, ⟨_, hcost⟩, ?_, h.quota⟩
  rw [cutReservedBytes_of_kept h.flushes.changes.kept_eq]
  exact h.cut

/-- Without a new segment the old one is open, and paying has not closed it. -/
theorem Paid.stillOpen (h : Paid X s r a bytes t u) (hneeded : openNeeded X t r.shardIndex = false) :
    rotateNeeded X t r.shardIndex = false ∧
      ((afterPrice u a bytes).segments r.shardIndex).isOpen = true := by
  rw [openNeeded, Bool.or_eq_false_iff] at hneeded
  refine ⟨hneeded.2, ?_⟩
  change (u.segments r.shardIndex).isOpen = true
  rw [h.isOpen]
  simpa using hneeded.1

/-- The pending records of the shard are those from before, which the record can join, or none. -/
theorem Paid.room {ok : Bool} (h : Paid X s r a bytes t u)
    (hv : Prepared X (afterPrice u a bytes) r.shardIndex (ok, v)) :
    (v.segments r.shardIndex).pending = [] ∨
      ((v.segments r.shardIndex).pending = (s.segments r.shardIndex).pending ∧
        flushNeeded (s.segments r.shardIndex) r = false) := by
  obtain ⟨hst, -, hempty⟩ := h.flushed_spec
  rcases hv.pending r.shardIndex with hkept | hnone
  · have hvu : (v.segments r.shardIndex).pending = (u.segments r.shardIndex).pending := hkept
    rw [hvu]
    rcases hempty with hnil | hneeded
    · exact .inl (h.flushes.changes.pending_nil hnil)
    · exact ((hst.trans h.flushes).changes.pending r.shardIndex).symm.imp_right (⟨·, hneeded⟩)
  · exact .inl hnone

/-- An index entry that is missing was missing when the price was made, or its segment is new. -/
theorem Paid.newEntry (h : Paid X s r a bytes t u)
    (hnone : ((prepareSegment X (afterPrice u a bytes) r.shardIndex (rotateNeeded X t r.shardIndex)
      (openNeeded X t r.shardIndex)).2.segments r.shardIndex).indexPositions r.indexKey = none) :
    indexNeeded X t r = true := by
  unfold indexNeeded
  cases hneeded : openNeeded X t r.shardIndex with
  | true => rfl
  | false =>
    obtain ⟨hrotate, hopen⟩ := h.stillOpen hneeded
    rw [hneeded, hrotate] at hnone
    have hpositions : (u.segments r.shardIndex).indexPositions =
        (t.segments r.shardIndex).indexPositions := (h.flushes.changes.staysOpen hopen).indexPositions
    rw [← hpositions]
    exact decide_eq_true hnone

theorem Paid.needsEntry (h : Paid X s r a bytes t u) (hindex : indexNeeded X t r = true) :
    needsEntry X s r = true := by
  unfold Corpus.needsEntry
  rw [h.admitted, h.flushed]
  dsimp only
  rw [h.required]
  dsimp only
  rw [hindex, h.cut, h.paid]
  rfl

/-- The rest of `append` for a record that is paid for. -/
theorem Paid.appended (h : Paid X s r a bytes t u) :
    Appended X s r (match prepareSegment X (afterPrice u a bytes) r.shardIndex
        (rotateNeeded X t r.shardIndex) (openNeeded X t r.shardIndex) with
      | (false, v) => (.ioError, v)
      | (true, v) => storeRecord X v r a) := by
  obtain ⟨hprepare, hopen⟩ := prepared_prepareSegment X (afterPrice u a bytes) r.shardIndex
    (rotateNeeded X t r.shardIndex) (openNeeded X t r.shardIndex) h.stillOpen
  have hnew := h.newEntry
  have hquota : (afterPrice u a bytes).quotaReached = s.quotaReached :=
    h.quota_eq.trans h.flushed_spec.2.1
  rw [← quotaReached_prepareSegment X (afterPrice u a bytes) r.shardIndex
    (rotateNeeded X t r.shardIndex) (openNeeded X t r.shardIndex)] at hquota
  rcases hresult : prepareSegment X (afterPrice u a bytes) r.shardIndex
    (rotateNeeded X t r.shardIndex) (openNeeded X t r.shardIndex) with ⟨_ | _, v⟩ <;>
    rw [hresult] at hprepare hopen hnew hquota
  · exact .unstored h.admitted h.payable hprepare.changes
  · exact appended_storeRecord h.admitted h.payable hprepare (hopen rfl) (h.room hprepare) hnew
      h.needsEntry hquota

end Paid

/-- `append` refuses the record, fails before or after the record is paid for, or stores it. -/
theorem appended_append (X : Platform) (s : WriterState) (r : BinaryMarketRecord) :
    Appended X s r (append X s r) := by
  unfold append
  split
  · rename_i status hadmitted
    exact .refused hadmitted
  rename_i a hadmitted
  unfold appendAdmitted
  dsimp only
  rw [← flushedFor]
  have hst := (flushedFor_spec X s r (admitted_of_ok hadmitted).shard_lt).1
  rcases hfirst : flushedFor X s r with ⟨_ | _, t⟩ <;> rw [hfirst] at hst
  · exact .unpaid (by decide) hst
  dsimp only at hst ⊢
  rw [cutGrowth_eq]
  cases hbytes : requiredBytes X t r a.addedSource.isSome with
  | none => exact .unpaid (by decide) hst
  | some bytes =>
    dsimp only
    split
    · exact .unpaid (by decide) hst
    rename_i hcut
    rw [Bool.not_eq_true, Bool.not_eq_false'] at hcut
    obtain ⟨u, htu, hopen, hquotaU, hpay | hpay | ⟨hquota, hpay⟩⟩ :=
      changes_payForRecord X t bytes (recordGrowth a.addedSource.isSome) <;> rw [hpay]
    · exact .unpaid (by decide) (hst.trans htu)
    · exact .unpaid (by decide) ((hst.trans htu).trans (FlushChange.quota u).flushes)
    · exact Paid.appended ⟨hadmitted, hfirst, hbytes, hcut, hpay, htu, hopen, hquotaU, hquota⟩

/-- A relation that holds from before to after whatever `append` does until it stores the record. -/
structure LeadsToStore (X : Platform) (R : WriterState → WriterState → Prop) : Prop where
  trans : ∀ {s t u}, R s t → R t u → R s u
  changes : ∀ {s t}, Changes X s t → R s t
  price : ∀ u a bytes, R u (afterPrice u a bytes)
  prepared : ∀ {s shard ok t}, Prepared X s shard (ok, t) → R s t
  source : ∀ s a, R s (withSource s a)
  index : ∀ {s shard} key, (s.segments shard).isOpen = true → R s (withIndex s shard key)

/-- `append` stores nothing, or it stores the record in an open segment; the state before that is
related to the first one. -/
theorem Appended.beforeStore {R : WriterState → WriterState → Prop} (hR : LeadsToStore X R)
    {result : Status × WriterState} (h : Appended X s r result) :
    (result.1 ≠ .ok ∧ R s result.2) ∨
      ∃ a w position, admitRecord X s r = .ok a ∧ R s w ∧
        (w.segments r.shardIndex).isOpen = true ∧
        result = (.ok, acceptRecord X w r a position) := by
  have hpaid : ∀ {u v a bytes newIndex ok}, Payable X s u a bytes newIndex →
      Prepared X (afterPrice u a bytes) r.shardIndex (ok, v) → R s v := fun hpay hv =>
    hR.trans (hR.trans (hR.changes hpay.changes) (hR.price ..)) (hR.prepared hv)
  cases h with
  | refused hrefused =>
    refine .inl ⟨?_, hR.changes (.refl s)⟩
    rintro rfl
    exact admitRecord_error_ne hrefused rfl
  | unpaid hne hflushes => exact .inl ⟨hne, hR.changes hflushes.changes⟩
  | @unstored a bytes _ u v _ hpay hchanges =>
    have hv : Prepared X (afterPrice u a bytes) r.shardIndex (false, v) := .kept hchanges
    exact .inl ⟨nofun, hpaid hpay hv⟩
  | unindexed _ hpay hprepared =>
    refine .inl ⟨?_, hR.trans (hpaid hpay hprepared) (hR.source ..)⟩
    dsimp only
    split <;> decide
  | @stored a bytes position _ u v w ha hpay hprepared hopen _ hindex =>
    have hsource := hR.trans (hpaid hpay hprepared) (hR.source v a)
    rw [← withSource_segments v a] at hopen
    refine .inr ⟨a, w, position, ha, ?_⟩
    rcases hindex with ⟨-, rfl⟩ | ⟨-, -, -, rfl⟩
    · exact ⟨hsource, hopen, rfl⟩
    · refine ⟨hR.trans hsource (hR.index r.indexKey hopen), ?_, rfl⟩
      rw [withIndex_segments_self]
      exact hopen

/-- A part of the state that is kept by the changes and that paying, a source, an index entry, and a
record leave alone is the same after `append`. -/
theorem Appended.frame {β : Type} {f : WriterState → β}
    (hkept : ∀ {u v : WriterState}, v.kept = u.kept → f v = f u)
    (hpay : ∀ u bytes growth, f (afterPay u bytes growth) = f u)
    (hsource : ∀ u source prospective, f (addSource u source prospective) = f u)
    (hindex : ∀ u shard key, f (withIndex u shard key) = f u)
    (haccept : ∀ u a position, f (acceptRecord X u r a position) = f u)
    {result : Status × WriterState} (h : Appended X s r result) : f result.2 = f s := by
  have hwithSource : ∀ (v : WriterState) (a : Admission), f (withSource v a) = f v := by
    intro v a
    unfold withSource
    split
    · exact hsource ..
    · rfl
  have hR : LeadsToStore X fun s t => f t = f s :=
    ⟨fun h g => g.trans h, fun h => hkept h.kept_eq, fun _ _ _ => hpay .., fun h => hkept h.kept_eq,
      hwithSource, fun _ _ => hindex ..⟩
  rcases h.beforeStore hR with ⟨-, h⟩ | ⟨a, w, position, -, hw, -, rfl⟩
  · exact h
  · exact (haccept ..).trans hw

/-! ## Publishing -/

theorem changes_flushAll {ok : Bool} (h : flushAndSyncShards X s.shards s = (ok, u)) :
    Changes X s u := by
  have hflush := changes_flushAndSyncShards (X := X) s.shards fun k hk => List.mem_range.mp hk
  rw [h] at hflush
  exact hflush

/-- What a call of `publishCut` returns and leaves. -/
inductive Published (X : Platform) (s : WriterState) (now : ℕ) : Status × WriterState → Prop
  /-- The call is refused, or fails on the way. -/
  | failed {status : Status} {t : WriterState} (hne : status ≠ .ok) (h : Changes X s t) :
      Published X s now (status, t)
  /-- The cut of the flushed state is in its file. -/
  | published {u : WriterState} {before after : Disk CorpusFile} {cut : CorpusCut}
      (hactive : s.active = true) (hgeneration : s.cutGeneration ≠ maximumUInt64)
      (hflush : flushAndSyncShards X s.shards s = (true, u))
      (hreserved : CutReserved u) (hbind : bindReference u (currentCut u now) = .ok cut)
      (hsync : u.disk.sync = (true, before))
      (hreplace : before.replace .cutPending .cut [encodeCorpusCut cut] = (true, after)) :
      Published X s now (.ok, adoptCut (u.setDisk after) cut)

/-- `publishCut`, wherever it ends. -/
theorem published_publishCut (X : Platform) (s : WriterState) (now : ℕ) :
    Published X s now (publishCut X s now) := by
  unfold publishCut
  split
  · exact .failed (by decide) (.refl s)
  rename_i hvalid
  simp only [Bool.not_eq_true', not_or, Bool.not_eq_false] at hvalid
  split
  · rename_i u hu
    exact .failed (by decide) (changes_flushAll hu)
  rename_i u hu
  have hflush := changes_flushAll hu
  unfold commitCut
  split
  · exact .failed (by decide) hflush
  rename_i required hrequired
  split
  · exact .failed (by decide) hflush
  rename_i hle
  split
  · rename_i status hbind
    exact .failed (bindReference_error_ne hbind) hflush
  rename_i cut hbind
  -- The cut file is replaced, and nothing but the directory changes.
  rcases hsync : u.disk.sync with ⟨_ | _, before⟩ <;> simp only [onDisk, hsync, andThen]
  · exact .failed (by decide) (hflush.trans (Change.disk u before).changes)
  · rcases hreplace : before.replace .cutPending .cut [encodeCorpusCut cut] with ⟨_ | _, after⟩ <;>
      simp only [WriterState.setDisk, hreplace]
    · exact .failed (by decide) (hflush.trans (Change.disk u after).changes)
    · exact .published hvalid.1 hvalid.2 hu ⟨required, hrequired, not_lt.mp hle⟩ hbind hsync
        hreplace

/-! ## Sealing -/

theorem changes_writeTableAtomic {α : Type} [Layout α] (s : WriterState)
    (temporary target : CorpusFile) (magic : ℕ) (records : List α) :
    Changes X s (writeTableAtomic s temporary target magic records).2 := by
  unfold writeTableAtomic
  split
  · exact .refl s
  · exact changes_onDisk ..

theorem changes_writeTables (s : WriterState) : Changes X s (writeTables s).2 :=
  .andThen (changes_writeTableAtomic ..) fun _ =>
    .andThen (changes_writeTableAtomic ..) fun _ => changes_writeTableAtomic ..

def completed (s : WriterState) (reason : BinaryMarketStopReason) (finalizedReceiveNs : ℤ) :
    WriterState :=
  { s with manifest := finalManifest s reason finalizedReceiveNs }

/-- The state with the bytes of the quota in its manifest. -/
def withProjected (s : WriterState) : WriterState :=
  { s with manifest := { s.manifest with projectedBytes := s.projectedBytes } }

theorem sealManifest_cases (s : WriterState) : ∃ disk,
    sealManifest s = (.ioError, (withProjected s).setDisk disk) ∨
      sealManifest s = (.ok, { (withProjected s).setDisk disk with active := false }) := by
  unfold sealManifest onDisk
  dsimp only
  split
  · rename_i t ht
    exact ⟨_, .inl (by rw [← (Prod.mk.inj ht).2]; rfl)⟩
  · rename_i t ht
    exact ⟨_, .inr (by rw [← (Prod.mk.inj ht).2]; rfl)⟩

/-- What a call of `finalize` returns and leaves. -/
inductive Finalized (X : Platform) (s : WriterState) (reason : BinaryMarketStopReason)
    (finalizedReceiveNs : Int64) (now : ℕ) : Status × WriterState → Prop
  /-- The call is refused, or fails before its manifest is complete. -/
  | failed {status : Status} {t : WriterState} (hne : status ≠ .ok) (h : Changes X s t) :
      Finalized X s reason finalizedReceiveNs now (status, t)
  /-- The cut is not published. -/
  | unpublished {status : Status} {u t : WriterState} (hreceive : 0 < finalizedReceiveNs.toInt)
      (hsealed : andThen (sealShards X s.shards s) writeTables = (true, u)) (hne : status ≠ .ok)
      (h : Changes X (completed u reason finalizedReceiveNs.toInt) t) :
      Finalized X s reason finalizedReceiveNs now (status, t)
  /-- The cut is published, and `manifest.bin` is written or not. -/
  | published {u t : WriterState} (hreceive : 0 < finalizedReceiveNs.toInt)
      (hreason : knownStopReason reason = true)
      (hsealed : andThen (sealShards X s.shards s) writeTables = (true, u))
      (h : Published X (completed u reason finalizedReceiveNs.toInt) now (.ok, t)) :
      Finalized X s reason finalizedReceiveNs now (sealManifest t)

theorem changes_seal {ok : Bool} (h : andThen (sealShards X s.shards s) writeTables = (ok, t)) :
    Changes X s t := by
  have hsealed : Changes X s (andThen (sealShards X s.shards s) writeTables).2 :=
    .andThen (changes_sealShards ..) fun _ => changes_writeTables _
  rw [h] at hsealed
  exact hsealed

/-- `finalize`, wherever it ends. -/
theorem finalized_finalize (X : Platform) (s : WriterState) (reason : BinaryMarketStopReason)
    (finalizedReceiveNs : Int64) (now : ℕ) :
    Finalized X s reason finalizedReceiveNs now (finalize X s reason finalizedReceiveNs now) := by
  unfold finalize
  split
  · exact .failed (by decide) (.refl s)
  rename_i hvalid
  simp only [Bool.not_eq_true', not_or, Bool.not_eq_false, not_le] at hvalid
  split
  · exact .failed (by decide) (.refl s)
  split
  · rename_i t ht
    exact .failed (by decide) (changes_seal ht)
  rename_i u hu
  have hpublish := published_publishCut X (completed u reason finalizedReceiveNs.toInt) now
  change Finalized X s reason finalizedReceiveNs now
    (publishSealed X (completed u reason finalizedReceiveNs.toInt) now)
  unfold publishSealed
  split
  · rename_i t ht
    rw [ht] at hpublish
    exact .published hvalid.2.1 hvalid.2.2 hu hpublish
  · rename_i status t hne ht
    rw [ht] at hpublish
    cases hpublish with
    | failed hne h => exact .unpublished hvalid.2.1 hu hne h
    | published => exact absurd rfl hne

/-! ## Calls -/

/-- A gap that is taken is valid, and replaces the entry of its cell or is the first one there. -/
inductive GapTaken (s : WriterState) (gap : BinaryMarketGap) : WriterState → Prop
  | replaced {position : ℕ} (hvalid : validGapFields gap s.sources.length s.shardCount = true)
      (hposition : s.gaps.findIdx? (sameGapCell · gap) = some position) :
      GapTaken s gap { s with gaps := s.gaps.set position gap }
  | added (hvalid : validGapFields gap s.sources.length s.shardCount = true)
      (hnew : ∀ other ∈ s.gaps, sameGapCell other gap = false)
      (hroom : s.gaps.length < s.maximumGapRecords) :
      GapTaken s gap { s with
        gaps := s.gaps ++ [gap]
        manifest := { s.manifest with gapCount := s.manifest.gapCount + 1 } }

/-- What a call returns and leaves. -/
inductive Executed (X : Platform) (s : WriterState) : WriterCall → Status × WriterState → Prop
  /-- The call is refused, or fails and has taken nothing in. -/
  | failed {call : WriterCall} {status : Status} {t : WriterState} (hne : status ≠ .ok)
      (h : Changes X s t) : Executed X s call (status, t)
  | registered {sources added : List BinaryMarketSource}
      (hcount : s.sources.length + added.length ≤ kBinaryMarketMaximumSources)
      (hadded : ∀ i source, added[i]? = some source → ∃ given, source = registeredSource given ∧
        validBinaryMarketSource given (s.sources.length + i))
      (hfit : SourcesFit s added.length) :
      Executed X s (.registerSources sources) (.ok, afterRegister s added)
  | appended {record : BinaryMarketRecord} {result : Status × WriterState}
      (h : Appended X s record result) : Executed X s (.append record) result
  | gapTaken {gap : BinaryMarketGap} {t : WriterState} (h : GapTaken s gap t) :
      Executed X s (.appendGap gap) (.ok, t)
  | progressed {progress : CorpusProducerProgress}
      (hepoch : progress.producerEpoch = s.config.producerEpoch)
      (hcount : progress.shardCount = s.config.shardCount) :
      Executed X s (.updateProgress progress) (.ok, { s with progress })
  | referenced {payload : Bytes} (hlength : payload.length ≤ kCorpusMaximumReferenceBytes)
      (hquota : addWithin s.projectedBytes (referenceGrowth s payload) s.writeLimitBytes = true) :
      Executed X s (.setReferencePayload payload) (.ok, afterReference s payload)
  | published {now : UInt64} {result : Status × WriterState} (h : Published X s now.toNat result) :
      Executed X s (.publishCut now) result
  | draining : Executed X s .beginFinalDrain
      (.ok, { s with writeLimitBytes := s.config.maximumBytes.toNat })
  | finalized {reason : BinaryMarketStopReason} {finalizedReceiveNs : Int64} {now : UInt64}
      {result : Status × WriterState}
      (h : Finalized X s reason finalizedReceiveNs now.toNat result) :
      Executed X s (.finalize reason finalizedReceiveNs now) result

theorem gapTaken_appendGap (s : WriterState) (gap : BinaryMarketGap) :
    (∃ status, status ≠ .ok ∧ appendGap s gap = (status, s)) ∨
      ∃ t, GapTaken s gap t ∧ appendGap s gap = (.ok, t) := by
  unfold appendGap
  split
  · exact .inl ⟨_, by decide, rfl⟩
  rename_i hvalid
  simp only [Bool.not_eq_true', not_or, Bool.not_eq_false] at hvalid
  split
  · exact .inl ⟨_, by decide, rfl⟩
  split
  · exact .inl ⟨_, by decide, rfl⟩
  split
  · rename_i position existing hposition _
    split
    · exact .inl ⟨_, by decide, rfl⟩
    · exact .inr ⟨_, .replaced hvalid.2 hposition, rfl⟩
  · rename_i hnone
    split
    · exact .inl ⟨_, by decide, rfl⟩
    · rename_i hroom
      refine .inr ⟨_, .added hvalid.2 ?_ (not_le.mp hroom), rfl⟩
      -- Without a position there is no entry, and an entry would have a position.
      have hposition : s.gaps.findIdx? (sameGapCell · gap) = none := by
        cases hposition : s.gaps.findIdx? (sameGapCell · gap) with
        | none => rfl
        | some position =>
          cases hfind : s.gaps.find? (sameGapCell · gap) with
          | none =>
            rw [List.find?_eq_none] at hfind
            rw [List.findIdx?_eq_some_iff_getElem] at hposition
            obtain ⟨hlt, hcell, _⟩ := hposition
            exact absurd hcell (hfind _ (List.getElem_mem hlt))
          | some existing => exact absurd hfind (hnone position existing hposition)
      intro other hother
      exact List.findIdx?_eq_none_iff.mp hposition other hother

/-- Every call, whatever its directory operations meet. -/
theorem executed_exec (hs : s.sources.length ≤ kBinaryMarketMaximumSources) (call : WriterCall) :
    Executed X s call (exec X s call) := by
  cases call with
  | registerSources sources =>
    change Executed X s _ (registerSources s sources)
    rcases registerSources_cases hs sources with he | ⟨added, -, -, -, hcount, hadded, hcase⟩
    · rw [he]
      exact .failed (by decide) (.refl s)
    · rcases hcase with ⟨-, he⟩ | ⟨hfit, he⟩ <;> rw [he]
      · exact .failed (by decide) (Change.quota s).changes
      · exact .registered hcount hadded hfit
  | append record => exact .appended (appended_append X s record)
  | appendGap gap =>
    change Executed X s _ (appendGap s gap)
    rcases gapTaken_appendGap s gap with ⟨status, hne, he⟩ | ⟨t, ht, he⟩ <;> rw [he]
    · exact .failed hne (.refl s)
    · exact .gapTaken ht
  | updateProgress progress =>
    change Executed X s _ (updateProgress s progress)
    unfold updateProgress
    split
    · exact .failed (by decide) (.refl s)
    rename_i hvalid
    simp only [Bool.not_eq_true', not_or, not_not] at hvalid
    split
    · exact .progressed hvalid.2.1 hvalid.2.2.1
    · exact .failed (by decide) (.refl s)
  | setReferencePayload payload =>
    change Executed X s _ (setReferencePayload s payload)
    rcases setReferencePayload_cases s payload with he | he | ⟨-, hlength, hquota, he⟩ <;> rw [he]
    · exact .failed (by decide) (.refl s)
    · exact .failed (by decide) (Change.quota s).changes
    · exact .referenced hlength hquota
  | publishCut now => exact .published (published_publishCut X s now.toNat)
  | beginFinalDrain =>
    change Executed X s _ (beginFinalDrain s)
    rcases beginFinalDrain_cases s with he | ⟨-, he⟩ <;> rw [he]
    · exact .failed (by decide) (.refl s)
    · exact .draining
  | finalize reason finalizedReceiveNs now =>
    exact .finalized (finalized_finalize X s reason finalizedReceiveNs now.toNat)

end HftRecorder.Corpus
