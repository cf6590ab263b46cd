import HftRecorder.Format.DepthTransaction
import HftRecorder.Lib.Pieces

/-!
# The grammar of depth transactions

What a sequence of records looks like that `advanceBinaryMarketDepthTransaction` accepts from the
inactive state: records of other channels and depth transactions, one after the other, the last one
possibly unfinished. A transaction is the chunks of each of its native parts and then, if announced,
its coverage tail, and both are the numbered pieces of a whole. `InNative` and `InTail` say which part
of an unfinished transaction a state describes; `advance_shaped` is the step, and the grammar follows
by induction on the sequence.
-/

namespace HftRecorder.Corpus

open ByteLayout BinaryMarketChannel Pieces

/-! ## Transactions -/

/-- Where a chunk says that it belongs in its native part. -/
def chunkLabels : Labels BinaryMarketRecord where
  index r := r.depthChunkPayload.partIndex
  count r := r.depthChunkPayload.partCount
  offset r := r.depthChunkPayload.levelOffset
  size r := r.depthChunkPayload.levelCount
  total r := r.depthChunkPayload.totalLevelCount

/-- Where a coverage record says that it belongs in the coverage tail. -/
def coverageLabels : Labels BinaryMarketRecord where
  index r := r.depthCoveragePayload.partIndex
  count r := r.depthCoveragePayload.partCount
  offset r := r.depthCoveragePayload.coverageOffset
  size r := r.depthCoveragePayload.coverageCount
  total r := r.depthCoveragePayload.totalCoverageCount

/-- The record belongs to the transaction that starts with `first`. -/
structure SameTransaction (first r : BinaryMarketRecord) : Prop where
  channel : r.channel = depth
  frameSequence : r.frameSequence = first.frameSequence
  receiveMonotonicNs : r.receiveMonotonicNs = first.receiveMonotonicNs
  receiveRealtimeNs : r.receiveRealtimeNs = first.receiveRealtimeNs
  sourceId : r.sourceId = first.sourceId
  sourceGeneration : r.sourceGeneration = first.sourceGeneration
  sessionEpoch : r.sessionEpoch = first.sessionEpoch
  hasCoverage : r.hasFlag recordDepthHasCoverage = first.hasFlag recordDepthHasCoverage

/-- The records are chunks of native part `n` of `count`. -/
structure ChunksOf (count n : ℕ) (chunks : List BinaryMarketRecord) : Prop where
  native : ∀ r ∈ chunks, r.hasFlag recordDepthCoverage = false
  transactionPartCount : ∀ r ∈ chunks, r.depthChunkPayload.transactionPartCount = count
  transactionPartIndex : ∀ r ∈ chunks, r.depthChunkPayload.transactionPartIndex = n

/-- The records are all chunks of native part `n` of `count`. -/
def NativePart (count n : ℕ) (chunks : List BinaryMarketRecord) : Prop :=
  ChunksOf count n chunks ∧ ∃ parts levels, Whole chunkLabels parts levels chunks

/-- The lists are the native parts of a transaction of `count` parts, from the first on. -/
def NativeParts (count : ℕ) (parts : List (List BinaryMarketRecord)) : Prop :=
  ∀ n part, parts[n]? = some part → NativePart count n part

/-- The records are coverage records of a transaction of `count` native parts. -/
structure CoverageOf (count : ℕ) (tail : List BinaryMarketRecord) : Prop where
  coverage : ∀ r ∈ tail, r.hasFlag recordDepthCoverage = true
  transactionPartCount : ∀ r ∈ tail, r.depthCoveragePayload.transactionPartCount = count

/-- The records are the whole coverage tail of a transaction of `count` native parts. -/
def CoverageTail (count : ℕ) (tail : List BinaryMarketRecord) : Prop :=
  CoverageOf count tail ∧ ∃ parts entries, Whole coverageLabels parts entries tail

/-- What finished and unfinished transactions share: the records are the given native parts and what
comes after them, and all belong to the transaction of the first one. -/
structure TransactionHead (first : BinaryMarketRecord) (parts : List (List BinaryMarketRecord))
    (rest records : List BinaryMarketRecord) : Prop where
  records_eq : records = parts.flatten ++ rest
  head : records.head? = some first
  same : ∀ r ∈ records, SameTransaction first r
  native_parts : NativeParts first.depthChunkPayload.transactionPartCount parts

/-- A finished transaction: it has all native parts, it has a coverage tail exactly when the flag
says so, and only its last record carries the end flag. -/
def DepthTransaction (records : List BinaryMarketRecord) : Prop :=
  ∃ first parts tail, TransactionHead first parts tail records ∧
    parts.length = first.depthChunkPayload.transactionPartCount ∧
    (if first.hasFlag recordDepthHasCoverage then
      CoverageTail first.depthChunkPayload.transactionPartCount tail else tail = []) ∧
    ∃ init last, records = init ++ [last] ∧ last.hasFlag recordDepthTransactionEnd = true ∧
      ∀ r ∈ init, r.hasFlag recordDepthTransactionEnd = false

/-- An unfinished transaction: it stops inside a native part or inside the coverage tail, and no
record carries the end flag. -/
def UnfinishedTransaction (records : List BinaryMarketRecord) : Prop :=
  ∃ first parts rest, TransactionHead first parts rest records ∧
    (∀ r ∈ records, r.hasFlag recordDepthTransactionEnd = false) ∧
    ((parts.length < first.depthChunkPayload.transactionPartCount ∧
        ChunksOf first.depthChunkPayload.transactionPartCount parts.length rest ∧
        ∃ chunks levels, rest.length < chunks ∧ Numbered chunkLabels chunks levels rest) ∨
      (parts.length = first.depthChunkPayload.transactionPartCount ∧
        first.hasFlag recordDepthHasCoverage = true ∧
        CoverageOf first.depthChunkPayload.transactionPartCount rest ∧
        ∃ chunks entries, rest.length < chunks ∧ Numbered coverageLabels chunks entries rest))

def OtherRecord (records : List BinaryMarketRecord) : Prop :=
  ∃ r, records = [r] ∧ r.channel ≠ depth

/-! ## What the checks say of one record -/

variable {X : Platform} {r first : BinaryMarketRecord} {s t : BinaryMarketDepthTransactionState}

theorem frameSequence_ne_of_valid (h : validBinaryMarketRecord X r = true) (hc : r.channel = depth) :
    r.frameSequence ≠ 0 := by
  unfold validBinaryMarketRecord validRecordHeader at h
  simp only [Bool.and_eq_true, hc, Bool.or_eq_true, decide_eq_true_eq, ne_eq] at h
  have hheader := h.2
  simp only [reduceCtorEq, false_or, and_assoc] at hheader
  obtain ⟨-, -, -, -, hframe, -⟩ := hheader
  exact hframe

/-- A valid coverage record is cut at multiples of five entries, and only the last one ends the
transaction. -/
theorem coverage_of_valid (h : validBinaryMarketRecord X r = true) (hc : r.channel = depth)
    (hcoverage : r.hasFlag recordDepthCoverage = true) :
    CutAt coverageLabels 5 r.depthCoveragePayload.partCount r.depthCoveragePayload.totalCoverageCount
        r.depthCoveragePayload.partIndex r ∧
      r.depthCoveragePayload.partIndex < r.depthCoveragePayload.partCount ∧
      r.depthCoveragePayload.totalCoverageCount ≤ r.depthCoveragePayload.partCount * 5 ∧
      (r.hasFlag recordDepthTransactionEnd = true ↔
        r.depthCoveragePayload.partIndex + 1 = r.depthCoveragePayload.partCount) := by
  unfold validBinaryMarketRecord at h
  simp only [Bool.and_eq_true] at h
  have hrecord : validCoverageRecord X r = true := by
    have hpayload := h.1.1.1.1
    simpa [validMarketPayload, hc, hcoverage] using hpayload
  unfold validCoverageRecord at hrecord
  simp only [Bool.and_eq_true] at hrecord
  have hend := hrecord.2
  have hpayload := hrecord.1.1.1.1.1.2
  unfold validBinaryMarketDepthCoveragePayload at hpayload
  simp only [Bool.and_eq_true, Bool.not_eq_true', Bool.or_eq_false_iff, ne_eq, decide_not,
    Bool.not_eq_false', decide_eq_true_eq, decide_eq_false_iff_not] at hpayload
  obtain ⟨⟨⟨⟨⟨⟨⟨⟨⟨⟨⟨hne, -⟩, hcount⟩, hindex⟩, hoffset⟩, hoffsetLt⟩, -⟩, -⟩, hsize⟩, -⟩, -⟩, -⟩ :=
    hpayload
  have htotal : r.depthCoveragePayload.totalCoverageCount < 2 ^ 32 := field_lt _ _ _
  refine ⟨⟨rfl, rfl, rfl, hoffset, ?_, ?_⟩, by omega, by omega, ?_⟩
  · change r.depthCoveragePayload.coverageCount = _
    rw [hsize, hoffset, min_comm]
  · omega
  · simpa [beq_iff_eq] using congrArg (· = true) (beq_iff_eq.mp hend)

/-- A chunk at its expected position is cut at multiples of 32 levels. -/
theorem chunk_of_position (h : validDepthChunkPosition X r.depthChunkPayload s = true) :
    CutAt chunkLabels 32 r.depthChunkPayload.partCount r.depthChunkPayload.totalLevelCount
        s.nextChunk r ∧
      r.depthChunkPayload.transactionPartCount = s.nativeParts ∧
      r.depthChunkPayload.transactionPartIndex = s.nextNative ∧
      s.nextChunk = r.depthChunkPayload.partIndex ∧
      s.nextChunk < r.depthChunkPayload.partCount ∧
      r.depthChunkPayload.totalLevelCount ≤ r.depthChunkPayload.partCount * 32 ∧
      r.depthChunkPayload.transactionPartCount ≠ 0 := by
  unfold validDepthChunkPosition at h
  simp only [Bool.not_eq_true', Bool.or_eq_false_iff, ne_eq, decide_not, Bool.not_eq_false',
    decide_eq_true_eq, decide_eq_false_iff_not] at h
  simp only [kBinaryMarketDepthLevelsPerRecord] at h
  obtain ⟨⟨⟨⟨⟨⟨⟨⟨⟨⟨⟨hne, -⟩, hparts⟩, hnative⟩, -⟩, hindex⟩, hlt⟩, hoffset⟩, hle⟩, -⟩, hsize⟩,
    hcount⟩ := h
  refine ⟨⟨hindex, rfl, rfl, ?_, ?_, ?_⟩, hparts, hnative, hindex.symm, by omega, ?_, hne⟩
  · change r.depthChunkPayload.levelOffset = _
    rw [hoffset, hindex]
  · change r.depthChunkPayload.levelCount = _
    rw [hsize, hoffset, hindex]
  · rw [← hindex, ← hoffset]
    omega
  · split at hcount <;> omega

/-! ## What a state describes -/

/-- The state is in a transaction that starts with `first` and has the given records so far. Before
the first of them is counted the list is empty and the state has no native header. -/
structure Describes (s : BinaryMarketDepthTransactionState) (first : BinaryMarketRecord)
    (records : List BinaryMarketRecord) : Prop where
  frameSequence : s.frameSequence = first.frameSequence
  receiveMonotonicNs : s.receiveMonotonicNs = first.receiveMonotonicNs
  receiveRealtimeNs : s.receiveRealtimeNs = first.receiveRealtimeNs
  nativeParts : s.nativeParts = first.depthChunkPayload.transactionPartCount
  hasCoverage : s.hasCoverage = first.hasFlag recordDepthHasCoverage
  frameSequence_ne : first.frameSequence ≠ 0
  sourceId_ne : first.sourceId ≠ 0
  head : ∀ r, records.head? = some r → r = first
  same : ∀ r ∈ records, SameTransaction first r
  notEnd : ∀ r ∈ records, r.hasFlag recordDepthTransactionEnd = false
  lastNative : (records = [] ∧ s.lastNative.sourceId = 0) ∨
    (s.lastNative.sourceId = first.sourceId ∧ s.lastNative.sourceGeneration = first.sourceGeneration ∧
      s.lastNative.sessionEpoch = first.sessionEpoch)

/-- The state is inside a native part: `parts` are complete, and `chunks` is what there is of the
next one. -/
structure InNative (s : BinaryMarketDepthTransactionState) (count : ℕ)
    (parts : List (List BinaryMarketRecord)) (chunks : List BinaryMarketRecord) : Prop where
  awaitingCoverage : s.awaitingCoverage = false
  nextCoverage : s.nextCoverage = 0
  nextNative : s.nextNative = parts.length
  nextChunk : s.nextChunk = chunks.length
  parts_lt : parts.length < count
  native_parts : NativeParts count parts
  chunks_of : ChunksOf count parts.length chunks
  cut : CutAll chunkLabels 32 s.chunkParts s.totalLevelCount chunks
  chunks_lt : chunks ≠ [] → chunks.length < s.chunkParts

/-- The state is inside the coverage tail: the native parts are complete, and `tail` is what there is
of the tail. -/
structure InTail (s : BinaryMarketDepthTransactionState) (count : ℕ)
    (parts : List (List BinaryMarketRecord)) (tail : List BinaryMarketRecord) : Prop where
  awaitingCoverage : s.awaitingCoverage = true
  nextCoverage : s.nextCoverage = tail.length
  parts_length : parts.length = count
  native_parts : NativeParts count parts
  tail_of : CoverageOf count tail
  cut : CutAll coverageLabels 5 s.coverageParts s.totalCoverageCount tail
  tail_lt : tail ≠ [] → tail.length < s.coverageParts

/-- The state is in the transaction with the given records. -/
def Under (s : BinaryMarketDepthTransactionState) (first : BinaryMarketRecord)
    (records : List BinaryMarketRecord) : Prop :=
  Describes s first records ∧ ∃ parts rest, records = parts.flatten ++ rest ∧
    (InNative s first.depthChunkPayload.transactionPartCount parts rest ∨
      (InTail s first.depthChunkPayload.transactionPartCount parts rest ∧
        first.hasFlag recordDepthHasCoverage = true))

variable {records chunks tail : List BinaryMarketRecord} {parts : List (List BinaryMarketRecord)}
  {count : ℕ}

theorem Describes.active (h : Describes s first records) : s.active = true := by
  simp [BinaryMarketDepthTransactionState.active, h.frameSequence, h.frameSequence_ne]

/-- A record that the state takes for one of its transaction is one of the transaction of the first
record. -/
theorem Describes.sameTransaction (h : Describes s first records) (hc : r.channel = depth)
    (hfirst : records = [] → r = first) (hsame : sameDepthTransaction r s = true) :
    SameTransaction first r := by
  unfold sameDepthTransaction at hsame
  simp only [Bool.and_eq_true, decide_eq_true_eq, beq_iff_eq] at hsame
  obtain ⟨⟨⟨⟨hframe, hmonotonic⟩, hrealtime⟩, hcoverage⟩, hnative⟩ := hsame
  rcases h.lastNative with ⟨hnil, -⟩ | ⟨hsource, hgeneration, hsession⟩
  · rw [hfirst hnil] at hc ⊢
    exact ⟨hc, rfl, rfl, rfl, rfl, rfl, rfl, rfl⟩
  · have hne := h.sourceId_ne
    simp only [hsource, hgeneration, hsession, Bool.not_eq_true', Bool.and_eq_false_iff,
      Bool.or_eq_false_iff, decide_eq_false_iff_not, not_not, ne_eq, hne, false_or] at hnative
    exact ⟨hc, hframe.trans h.frameSequence, hmonotonic.trans h.receiveMonotonicNs,
      hrealtime.trans h.receiveRealtimeNs, hnative.1.1, hnative.1.2, hnative.2,
      hcoverage.trans h.hasCoverage⟩

/-- Taking a record of the transaction that does not end it. -/
theorem Describes.snoc (h : Describes s first records) (hfirst : records = [] → r = first)
    (hsame : SameTransaction first r) (hend : r.hasFlag recordDepthTransactionEnd = false)
    (hframe : t.frameSequence = s.frameSequence)
    (hmonotonic : t.receiveMonotonicNs = s.receiveMonotonicNs)
    (hrealtime : t.receiveRealtimeNs = s.receiveRealtimeNs) (hparts : t.nativeParts = s.nativeParts)
    (hcoverage : t.hasCoverage = s.hasCoverage) (hnative : t.lastNative.sourceId = first.sourceId ∧
      t.lastNative.sourceGeneration = first.sourceGeneration ∧
      t.lastNative.sessionEpoch = first.sessionEpoch) : Describes t first (records ++ [r]) := by
  refine ⟨hframe.trans h.frameSequence, hmonotonic.trans h.receiveMonotonicNs,
    hrealtime.trans h.receiveRealtimeNs, hparts.trans h.nativeParts, hcoverage.trans h.hasCoverage,
    h.frameSequence_ne, h.sourceId_ne, ?_, ?_, ?_, .inr hnative⟩
  · intro x hx
    cases records with
    | nil => exact (Option.some.inj hx).symm.trans (hfirst rfl)
    | cons a rest => exact h.head x hx
  · intro x hx
    rcases List.mem_append.mp hx with hx | hx
    · exact h.same x hx
    · rw [List.mem_singleton.mp hx]
      exact hsame
  · intro x hx
    rcases List.mem_append.mp hx with hx | hx
    · exact h.notEnd x hx
    · rw [List.mem_singleton.mp hx]
      exact hend

theorem Describes.head_snoc (h : Describes s first records) (hfirst : records = [] → r = first)
    (hsame : SameTransaction first r) (hrecords : records ++ [r] = parts.flatten ++ tail)
    (hparts : NativeParts first.depthChunkPayload.transactionPartCount parts) :
    TransactionHead first parts tail (records ++ [r]) := by
  refine ⟨hrecords, ?_, ?_, hparts⟩
  · cases records with
    | nil => simpa using hfirst rfl
    | cons a rest => simpa using h.head a rfl
  · intro x hx
    rcases List.mem_append.mp hx with hx | hx
    · exact h.same x hx
    · rw [List.mem_singleton.mp hx]
      exact hsame

/-! ## One step -/

theorem NativeParts.snoc (h : NativeParts count parts) (hpart : NativePart count parts.length chunks) :
    NativeParts count (parts ++ [chunks]) := by
  intro n part hn
  rcases lt_trichotomy n parts.length with hlt | rfl | hgt
  · rw [List.getElem?_append_left hlt] at hn
    exact h n part hn
  · rw [List.getElem?_concat_length] at hn
    obtain rfl := Option.some.inj hn
    exact hpart
  · rw [List.getElem?_eq_none (by simp; omega)] at hn
    cases hn

theorem ChunksOf.snoc {n : ℕ} (h : ChunksOf count n chunks)
    (hnative : r.hasFlag recordDepthCoverage = false)
    (hcount : r.depthChunkPayload.transactionPartCount = count)
    (hindex : r.depthChunkPayload.transactionPartIndex = n) : ChunksOf count n (chunks ++ [r]) := by
  constructor <;> intro x hx <;> rcases List.mem_append.mp hx with hx | hx
  · exact h.native x hx
  · rwa [List.mem_singleton.mp hx]
  · exact h.transactionPartCount x hx
  · rwa [List.mem_singleton.mp hx]
  · exact h.transactionPartIndex x hx
  · rwa [List.mem_singleton.mp hx]

theorem CoverageOf.snoc (h : CoverageOf count tail)
    (hcoverage : r.hasFlag recordDepthCoverage = true)
    (hcount : r.depthCoveragePayload.transactionPartCount = count) :
    CoverageOf count (tail ++ [r]) := by
  constructor <;> intro x hx <;> rcases List.mem_append.mp hx with hx | hx
  · exact h.coverage x hx
  · rwa [List.mem_singleton.mp hx]
  · exact h.transactionPartCount x hx
  · rwa [List.mem_singleton.mp hx]

/-- The state that has taken the members of a chunk and not yet counted it. -/
def chunkTaken (r : BinaryMarketRecord) (s : BinaryMarketDepthTransactionState) :
    BinaryMarketDepthTransactionState :=
  { (if s.nextChunk = 0 then beginDepthPart r.depthChunkPayload s else s) with
    lastNative := r.nativeHeader }

/-- Taking a chunk's members changes no counter, and nothing of the transaction but its last native
header. -/
structure ChunkTaken (s u : BinaryMarketDepthTransactionState) : Prop where
  frameSequence : u.frameSequence = s.frameSequence
  receiveMonotonicNs : u.receiveMonotonicNs = s.receiveMonotonicNs
  receiveRealtimeNs : u.receiveRealtimeNs = s.receiveRealtimeNs
  nativeParts : u.nativeParts = s.nativeParts
  hasCoverage : u.hasCoverage = s.hasCoverage
  nextNative : u.nextNative = s.nextNative
  nextChunk : u.nextChunk = s.nextChunk
  nextCoverage : u.nextCoverage = s.nextCoverage
  awaitingCoverage : u.awaitingCoverage = s.awaitingCoverage

theorem chunkTaken_frame (r : BinaryMarketRecord) (s : BinaryMarketDepthTransactionState) :
    ChunkTaken s (chunkTaken r s) := by
  unfold chunkTaken
  split <;> exact ⟨rfl, rfl, rfl, rfl, rfl, rfl, rfl, rfl, rfl⟩

/-- Everything that an accepted chunk says and does. -/
theorem advanceDepthChunk_some (h : advanceDepthChunk X r s = some t) :
    s.awaitingCoverage = false ∧ validDepthChunkPosition X r.depthChunkPayload s = true ∧
      (s.nextChunk ≠ 0 → r.depthChunkPayload.totalLevelCount = s.totalLevelCount ∧
        r.depthChunkPayload.partCount = s.chunkParts) ∧
      r.hasFlag recordDepthTransactionEnd = (!r.hasFlag recordDepthHasCoverage &&
        decide (r.depthChunkPayload.partIndex + 1 = r.depthChunkPayload.partCount) &&
        decide (r.depthChunkPayload.transactionPartIndex + 1 =
          r.depthChunkPayload.transactionPartCount)) ∧
      t = countDepthChunk (chunkTaken r s) := by
  unfold advanceDepthChunk at h
  unfold chunkTaken
  dsimp only at h
  generalize hpart : (if s.nextChunk = 0 then beginDepthPart r.depthChunkPayload s else s) = part
    at h ⊢
  split at h
  · cases h
  rename_i hposition
  simp only [not_or, Bool.not_eq_true, Bool.not_eq_true', Bool.not_eq_false] at hposition
  split at h
  · cases h
  split at h
  · cases h
  rename_i htotals
  split at h
  · cases h
  rename_i hend
  simp only [not_or, not_not] at htotals
  refine ⟨hposition.1, hposition.2, fun hne => ?_, by simpa using hend, (Option.some.inj h).symm⟩
  rw [if_neg hne] at hpart
  rwa [hpart]

theorem countDepthChunk_cases (hchunk : s.nextChunk < s.chunkParts) (hchunks : s.chunkParts < 2 ^ 16)
    (hnative : s.nextNative < s.nativeParts) (hparts : s.nativeParts < 2 ^ 16) :
    (s.nextChunk + 1 < s.chunkParts ∧
        countDepthChunk s = { s with nextChunk := s.nextChunk + 1 }) ∨
      (s.nextChunk + 1 = s.chunkParts ∧ s.nextNative + 1 < s.nativeParts ∧
        countDepthChunk s = { s with nextChunk := 0, nextNative := s.nextNative + 1 }) ∨
      (s.nextChunk + 1 = s.chunkParts ∧ s.nextNative + 1 = s.nativeParts ∧
        countDepthChunk s = if s.hasCoverage then
          { s with nextChunk := 0, nextNative := s.nextNative + 1, awaitingCoverage := true }
        else {}) := by
  unfold countDepthChunk
  have hc : (s.nextChunk + 1) % 2 ^ 16 = s.nextChunk + 1 := Nat.mod_eq_of_lt (by omega)
  have hn : (s.nextNative + 1) % 2 ^ 16 = s.nextNative + 1 := Nat.mod_eq_of_lt (by omega)
  simp only [hc, hn]
  by_cases h1 : s.nextChunk + 1 = s.chunkParts
  · by_cases h2 : s.nextNative + 1 = s.nativeParts
    · exact .inr (.inr ⟨h1, h2, by rw [if_pos h1, if_pos h2]⟩)
    · exact .inr (.inl ⟨h1, by omega, by rw [if_pos h1, if_neg h2]⟩)
  · exact .inl ⟨by omega, if_neg h1⟩

/-- What an accepted record does to the records of its transaction: it continues the transaction, or
it carries the end flag and completes it. -/
def Continues (first : BinaryMarketRecord) (records : List BinaryMarketRecord) (r : BinaryMarketRecord)
    (t : BinaryMarketDepthTransactionState) : Prop :=
  (r.hasFlag recordDepthTransactionEnd = false ∧ Under t first (records ++ [r])) ∨
    (r.hasFlag recordDepthTransactionEnd = true ∧ t = {} ∧ DepthTransaction (records ++ [r]))

/-- The state `u` has taken the chunk `r`, which comes after `chunks` in its part, and has not counted
it yet. -/
structure Uncounted (u : BinaryMarketDepthTransactionState) (first : BinaryMarketRecord)
    (records : List BinaryMarketRecord) (parts : List (List BinaryMarketRecord))
    (chunks : List BinaryMarketRecord) (r : BinaryMarketRecord) : Prop where
  describes : r.hasFlag recordDepthTransactionEnd = false → Describes u first (records ++ [r])
  notEnd : ∀ x ∈ records, x.hasFlag recordDepthTransactionEnd = false
  head : ∀ {whole}, records ++ [r] = List.flatten whole ++ [] →
    NativeParts first.depthChunkPayload.transactionPartCount whole →
    TransactionHead first whole [] (records ++ [r])
  records_eq : records ++ [r] = parts.flatten ++ (chunks ++ [r])
  hasCoverage : u.hasCoverage = first.hasFlag recordDepthHasCoverage
  awaitingCoverage : u.awaitingCoverage = false
  nextCoverage : u.nextCoverage = 0
  nextNative : u.nextNative = parts.length
  nextChunk : u.nextChunk = chunks.length
  nativeParts : u.nativeParts = first.depthChunkPayload.transactionPartCount
  parts_lt : parts.length < first.depthChunkPayload.transactionPartCount
  chunks_lt : chunks.length < u.chunkParts
  chunkParts_lt : u.chunkParts < 2 ^ 16
  levels_le : u.totalLevelCount ≤ u.chunkParts * 32
  native_parts : NativeParts first.depthChunkPayload.transactionPartCount parts
  chunks_of : ChunksOf first.depthChunkPayload.transactionPartCount parts.length (chunks ++ [r])
  cut : CutAll chunkLabels 32 u.chunkParts u.totalLevelCount (chunks ++ [r])
  end_eq : r.hasFlag recordDepthTransactionEnd = (!first.hasFlag recordDepthHasCoverage &&
    decide (chunks.length + 1 = u.chunkParts) &&
    decide (parts.length + 1 = first.depthChunkPayload.transactionPartCount))

/-- What is known of an accepted chunk before it is counted. -/
theorem uncounted_chunkTaken (hs : Describes s first records)
    (hrecords : records = parts.flatten ++ chunks)
    (hn : InNative s first.depthChunkPayload.transactionPartCount parts chunks)
    (hfirst : records = [] → r = first) (hsame : SameTransaction first r)
    (hnative : r.hasFlag recordDepthCoverage = false) (h : advanceDepthChunk X r s = some t) :
    Uncounted (chunkTaken r s) first records parts chunks r := by
  obtain ⟨-, hposition, htotals, hend, -⟩ := advanceDepthChunk_some h
  obtain ⟨hcut, hcount, hindex, hpart, hlt, hle, -⟩ := chunk_of_position hposition
  have hframe := chunkTaken_frame r s
  have hsizes : (chunkTaken r s).chunkParts = r.depthChunkPayload.partCount ∧
      (chunkTaken r s).totalLevelCount = r.depthChunkPayload.totalLevelCount := by
    unfold chunkTaken
    split
    · exact ⟨rfl, rfl⟩
    · rename_i hne
      exact ⟨(htotals hne).2.symm, (htotals hne).1.symm⟩
  have hcutAll : CutAll chunkLabels 32 r.depthChunkPayload.partCount
      r.depthChunkPayload.totalLevelCount (chunks ++ [r]) := by
    refine CutAll.snoc ?_ (hn.nextChunk ▸ hcut)
    by_cases hne : s.nextChunk = 0
    · rw [hn.nextChunk, List.length_eq_zero_iff] at hne
      rw [hne]
      exact .nil
    · rw [(htotals hne).1, (htotals hne).2]
      exact hn.cut
  exact {
    describes := fun hnotEnd => hs.snoc hfirst hsame hnotEnd hframe.frameSequence
      hframe.receiveMonotonicNs hframe.receiveRealtimeNs hframe.nativeParts hframe.hasCoverage
      ⟨hsame.sourceId, hsame.sourceGeneration, hsame.sessionEpoch⟩
    notEnd := hs.notEnd
    head := hs.head_snoc hfirst hsame
    records_eq := by rw [hrecords, List.append_assoc]
    hasCoverage := hframe.hasCoverage.trans hs.hasCoverage
    awaitingCoverage := hframe.awaitingCoverage.trans hn.awaitingCoverage
    nextCoverage := hframe.nextCoverage.trans hn.nextCoverage
    nextNative := hframe.nextNative.trans hn.nextNative
    nextChunk := hframe.nextChunk.trans hn.nextChunk
    nativeParts := hframe.nativeParts.trans hs.nativeParts
    parts_lt := hn.parts_lt
    chunks_lt := by rw [hsizes.1, ← hn.nextChunk]; exact hlt
    chunkParts_lt := by rw [hsizes.1]; exact field_lt _ _ _
    levels_le := by rw [hsizes.1, hsizes.2]; exact hle
    native_parts := hn.native_parts
    chunks_of := hn.chunks_of.snoc hnative (hcount.trans hs.nativeParts) (hindex.trans hn.nextNative)
    cut := by rw [hsizes.1, hsizes.2]; exact hcutAll
    end_eq := by
      rw [hend, hsame.hasCoverage, hsizes.1, ← hpart, hn.nextChunk, hindex, hn.nextNative, hcount,
        hs.nativeParts] }

section Uncounted

variable {u : BinaryMarketDepthTransactionState}

/-- More chunks of this part follow. -/
theorem Uncounted.sameChunk (h : Uncounted u first records parts chunks r)
    (hmore : chunks.length + 1 < u.chunkParts) :
    Continues first records r { u with nextChunk := u.nextChunk + 1 } := by
  have hnotEnd : r.hasFlag recordDepthTransactionEnd = false := by
    rw [h.end_eq, decide_eq_false (by omega : ¬ chunks.length + 1 = u.chunkParts)]
    simp
  have hlength : (chunks ++ [r]).length = chunks.length + 1 := List.length_append
  refine .inl ⟨hnotEnd, { h.describes hnotEnd with }, parts, chunks ++ [r], h.records_eq, .inl ?_⟩
  exact ⟨h.awaitingCoverage, h.nextCoverage, h.nextNative,
    (congrArg (· + 1) h.nextChunk).trans hlength.symm, h.parts_lt, h.native_parts, h.chunks_of, h.cut,
    fun _ => hlength ▸ hmore⟩

/-- A part is complete with its last chunk. -/
theorem Uncounted.native_parts_snoc (h : Uncounted u first records parts chunks r)
    (hlast : chunks.length + 1 = u.chunkParts) :
    NativeParts first.depthChunkPayload.transactionPartCount (parts ++ [chunks ++ [r]]) := by
  have hlength : (chunks ++ [r]).length = u.chunkParts := by
    rw [List.length_append, List.length_singleton, hlast]
  exact h.native_parts.snoc ⟨h.chunks_of, _, _, h.cut.whole hlength (by omega) h.levels_le⟩

theorem Uncounted.records_snoc (h : Uncounted u first records parts chunks r) :
    records ++ [r] = (parts ++ [chunks ++ [r]]).flatten ++ [] := by
  simpa using h.records_eq

/-- The part is complete, and another one follows. -/
theorem Uncounted.nextPart (h : Uncounted u first records parts chunks r)
    (hlast : chunks.length + 1 = u.chunkParts)
    (hmore : parts.length + 1 < first.depthChunkPayload.transactionPartCount) :
    Continues first records r { u with nextChunk := 0, nextNative := u.nextNative + 1 } := by
  have hnotEnd : r.hasFlag recordDepthTransactionEnd = false := by
    rw [h.end_eq, decide_eq_false hmore.ne, Bool.and_false]
  refine .inl ⟨hnotEnd, { h.describes hnotEnd with }, _, [], h.records_snoc, .inl ?_⟩
  exact ⟨h.awaitingCoverage, h.nextCoverage, by simp [h.nextNative], rfl, by simpa using hmore,
    h.native_parts_snoc hlast, ⟨by simp, by simp, by simp⟩, .nil, fun hne => absurd rfl hne⟩

/-- The native parts are complete: the coverage tail follows, or the transaction ends. -/
theorem Uncounted.complete (h : Uncounted u first records parts chunks r)
    (hlast : chunks.length + 1 = u.chunkParts)
    (hdone : parts.length + 1 = first.depthChunkPayload.transactionPartCount) :
    Continues first records r (if u.hasCoverage then
      { u with nextChunk := 0, nextNative := u.nextNative + 1, awaitingCoverage := true } else {}) := by
  have hcomplete := h.native_parts_snoc hlast
  have hlength : (parts ++ [chunks ++ [r]]).length =
      first.depthChunkPayload.transactionPartCount := by
    rw [List.length_append, List.length_singleton, hdone]
  have hflag : r.hasFlag recordDepthTransactionEnd = !u.hasCoverage := by
    rw [h.end_eq, decide_eq_true hlast, decide_eq_true hdone, Bool.and_true, Bool.and_true,
      h.hasCoverage]
  split
  · rename_i hcoverage
    rw [hcoverage] at hflag
    refine .inl ⟨hflag, { h.describes hflag with }, _, [], h.records_snoc,
      .inr ⟨?_, h.hasCoverage ▸ hcoverage⟩⟩
    exact ⟨rfl, h.nextCoverage, hlength, hcomplete, ⟨by simp, by simp⟩, .nil,
      fun hne => absurd rfl hne⟩
  · rename_i hcoverage
    rw [Bool.not_eq_true] at hcoverage
    rw [hcoverage] at hflag
    refine .inr ⟨hflag, rfl, first, _, [], h.head h.records_snoc hcomplete, hlength, ?_,
      records, r, rfl, hflag, h.notEnd⟩
    rw [← h.hasCoverage, hcoverage, if_neg (by simp)]

end Uncounted

theorem chunk_continues (hs : Describes s first records) (hrecords : records = parts.flatten ++ chunks)
    (hn : InNative s first.depthChunkPayload.transactionPartCount parts chunks)
    (hfirst : records = [] → r = first) (hsame : SameTransaction first r)
    (hnative : r.hasFlag recordDepthCoverage = false) (h : advanceDepthChunk X r s = some t) :
    Continues first records r t := by
  have hu := uncounted_chunkTaken hs hrecords hn hfirst hsame hnative h
  obtain ⟨-, -, -, -, rfl⟩ := advanceDepthChunk_some h
  have hnative16 : first.depthChunkPayload.transactionPartCount < 2 ^ 16 := field_lt _ _ _
  have hcases := countDepthChunk_cases (s := chunkTaken r s) (hu.nextChunk ▸ hu.chunks_lt)
    hu.chunkParts_lt (by rw [hu.nextNative, hu.nativeParts]; exact hu.parts_lt)
    (by rw [hu.nativeParts]; exact hnative16)
  rcases hcases with ⟨hmore, he⟩ | ⟨hlast, hmore, he⟩ | ⟨hlast, hdone, he⟩ <;> rw [he]
  · exact hu.sameChunk (hu.nextChunk ▸ hmore)
  · exact hu.nextPart (hu.nextChunk ▸ hlast) (hu.nativeParts ▸ hu.nextNative ▸ hmore)
  · exact hu.complete (hu.nextChunk ▸ hlast) (hu.nativeParts ▸ hu.nextNative ▸ hdone)

/-- Everything that an accepted coverage record says and does. -/
theorem advanceDepthCoverage_some (h : advanceDepthCoverage r s = some t) :
    s.awaitingCoverage = true ∧ r.depthCoveragePayload.transactionPartCount = s.nativeParts ∧
      r.depthCoveragePayload.partIndex = s.nextCoverage ∧
      (s.nextCoverage ≠ 0 → r.depthCoveragePayload.totalCoverageCount = s.totalCoverageCount ∧
        r.depthCoveragePayload.partCount = s.coverageParts) ∧
      t = if (s.nextCoverage + 1) % 2 ^ 16 = r.depthCoveragePayload.partCount then {} else
        { s with
          totalCoverageCount := r.depthCoveragePayload.totalCoverageCount
          coverageParts := r.depthCoveragePayload.partCount
          nextCoverage := (s.nextCoverage + 1) % 2 ^ 16 } := by
  unfold advanceDepthCoverage at h
  dsimp only at h
  split at h
  · cases h
  rename_i hguard
  simp only [not_or, Bool.not_eq_true', Bool.not_eq_false, not_not, ne_eq] at hguard
  obtain ⟨hawaiting, hcount, hindex, -⟩ := hguard
  refine ⟨hawaiting, hcount, hindex, ?_⟩
  by_cases hzero : s.nextCoverage = 0
  · rw [if_pos hzero] at h
    simp only [ne_eq, not_true_eq_false, or_self, if_false] at h
    refine ⟨fun hne => absurd hzero hne, ?_⟩
    split at h
    · rename_i hlast
      rw [if_pos hlast]
      split at h
      · exact (Option.some.inj h).symm
      · cases h
    · rename_i hlast
      rw [if_neg hlast]
      exact (Option.some.inj h).symm
  · rw [if_neg hzero] at h
    split at h
    · cases h
    rename_i htotals
    simp only [not_or, ne_eq, not_not] at htotals
    refine ⟨fun _ => htotals, ?_⟩
    rw [htotals.1, htotals.2]
    split at h
    · rename_i hlast
      rw [if_pos hlast]
      split at h
      · exact (Option.some.inj h).symm
      · cases h
    · rename_i hlast
      rw [if_neg hlast]
      exact (Option.some.inj h).symm

/-- An accepted coverage record continues the transaction. -/
theorem coverage_continues (hs : Describes s first records)
    (hrecords : records = parts.flatten ++ tail)
    (ht : InTail s first.depthChunkPayload.transactionPartCount parts tail)
    (hannounced : first.hasFlag recordDepthHasCoverage = true)
    (hfirst : records = [] → r = first) (hsame : SameTransaction first r)
    (hnative : s.lastNative.sourceId = first.sourceId ∧
      s.lastNative.sourceGeneration = first.sourceGeneration ∧
      s.lastNative.sessionEpoch = first.sessionEpoch)
    (hvalid : validBinaryMarketRecord X r = true) (hcoverage : r.hasFlag recordDepthCoverage = true)
    (h : advanceDepthCoverage r s = some t) : Continues first records r t := by
  obtain ⟨-, hcount, hindex, htotals, he⟩ := advanceDepthCoverage_some h
  obtain ⟨hcut, hlt, htotal, hend⟩ := coverage_of_valid hvalid hsame.channel hcoverage
  have hparts16 : r.depthCoveragePayload.partCount < 2 ^ 16 := field_lt _ _ _
  have hnext : (s.nextCoverage + 1) % 2 ^ 16 = s.nextCoverage + 1 := Nat.mod_eq_of_lt (by omega)
  rw [hnext] at he
  have hcutAll : CutAll coverageLabels 5 r.depthCoveragePayload.partCount
      r.depthCoveragePayload.totalCoverageCount (tail ++ [r]) := by
    refine CutAll.snoc ?_ (by rw [← ht.nextCoverage, ← hindex]; exact hcut)
    by_cases hne : s.nextCoverage = 0
    · rw [ht.nextCoverage, List.length_eq_zero_iff] at hne
      rw [hne]
      exact .nil
    · rw [(htotals hne).1, (htotals hne).2]
      exact ht.cut
  have hof := ht.tail_of.snoc hcoverage (hcount.trans hs.nativeParts)
  have hsnoc : records ++ [r] = parts.flatten ++ (tail ++ [r]) := by
    rw [hrecords, List.append_assoc]
  have hlength : (tail ++ [r]).length = s.nextCoverage + 1 := by
    rw [List.length_append, List.length_singleton, ht.nextCoverage]
  -- The last coverage record is the end of the transaction.
  by_cases hlast : s.nextCoverage + 1 = r.depthCoveragePayload.partCount
  · rw [if_pos hlast] at he
    have hflag : r.hasFlag recordDepthTransactionEnd = true := hend.mpr (hindex ▸ hlast)
    refine .inr ⟨hflag, he, first, parts, tail ++ [r],
      hs.head_snoc hfirst hsame hsnoc ht.native_parts, ht.parts_length, ?_,
      records, r, rfl, hflag, hs.notEnd⟩
    rw [hannounced, if_pos rfl]
    exact ⟨hof, _, _, hcutAll.whole (hlength.trans hlast) (by omega) htotal⟩
  · rw [if_neg hlast] at he
    have hflag : r.hasFlag recordDepthTransactionEnd = false := by
      rw [Bool.eq_false_iff, ne_eq, hend, hindex]
      exact hlast
    refine .inl ⟨hflag, hs.snoc hfirst hsame hflag (by rw [he]) (by rw [he]) (by rw [he]) (by rw [he])
      (by rw [he]) (by rw [he]; exact hnative), parts, tail ++ [r], hsnoc, .inr ⟨?_, hannounced⟩⟩
    rw [he]
    refine ⟨ht.awaitingCoverage, hlength.symm, ht.parts_length, ht.native_parts, hof, hcutAll, ?_⟩
    intro _
    rw [hlength]
    change s.nextCoverage + 1 < r.depthCoveragePayload.partCount
    omega

/-- An accepted record of a transaction under way continues it. -/
theorem Under.continues (hu : Under s first records) (hne : records ≠ []) (hc : r.channel = depth)
    (hvalid : validBinaryMarketRecord X r = true) (hsame : sameDepthTransaction r s = true)
    (h : (if r.hasFlag recordDepthCoverage then advanceDepthCoverage r s
      else advanceDepthChunk X r s) = some t) : Continues first records r t := by
  obtain ⟨hs, parts, rest, hrecords, hphase⟩ := hu
  have hfirst : records = [] → r = first := fun hnil => absurd hnil hne
  have hrecord := hs.sameTransaction hc hfirst hsame
  split at h
  · rename_i hcoverage
    rcases hphase with hn | ⟨ht, hannounced⟩
    · have hawaiting := (advanceDepthCoverage_some h).1
      rw [hn.awaitingCoverage] at hawaiting
      cases hawaiting
    · rcases hs.lastNative with ⟨hnil, -⟩ | hnative
      · exact absurd hnil hne
      · exact coverage_continues hs hrecords ht hannounced hfirst hrecord hnative hvalid hcoverage h
  · rename_i hcoverage
    rcases hphase with hn | ⟨ht, -⟩
    · exact chunk_continues hs hrecords hn hfirst hrecord (by simpa using hcoverage) h
    · have hawaiting := (advanceDepthChunk_some h).1
      rw [ht.awaitingCoverage] at hawaiting
      cases hawaiting

/-- The first record of a transaction. -/
theorem begin_continues (hc : r.channel = depth) (hvalid : validBinaryMarketRecord X r = true)
    (hbegin : beginDepthTransaction r {} = some s) (hsame : sameDepthTransaction r s = true)
    (h : (if r.hasFlag recordDepthCoverage then advanceDepthCoverage r s
      else advanceDepthChunk X r s) = some t) : Continues r [] r t := by
  unfold beginDepthTransaction at hbegin
  dsimp only at hbegin
  rw [if_neg (by decide)] at hbegin
  split at hbegin
  · cases hbegin
  rename_i hcoverage
  split at hbegin
  · cases hbegin
  have hs := (Option.some.inj hbegin).symm
  rw [if_neg hcoverage] at h
  have hparts := (chunk_of_position (advanceDepthChunk_some h).2.1).2.2.2.2.2.2
  have hdescribes : Describes s r [] := by
    rw [hs]
    exact ⟨rfl, rfl, rfl, rfl, rfl, frameSequence_ne_of_valid hvalid hc,
      (validHeader_of_valid hvalid).sourceId_ne, by simp, by simp, by simp, .inl ⟨rfl, rfl⟩⟩
  have hnative : InNative s r.depthChunkPayload.transactionPartCount [] [] := by
    rw [hs]
    exact ⟨rfl, rfl, rfl, rfl, Nat.pos_of_ne_zero hparts, fun n part hn => (by cases hn),
      ⟨by simp, by simp, by simp⟩, .nil, fun hne => absurd rfl hne⟩
  exact chunk_continues hdescribes rfl hnative (fun _ => rfl)
    (hdescribes.sameTransaction hc (fun _ => rfl) hsame) (by simpa using hcoverage) h

/-! ## Whole sequences -/

/-- The records are those of other channels and finished transactions, and the state is inactive or
in the transaction of the records that are left. -/
def Shaped (s : BinaryMarketDepthTransactionState) (records : List BinaryMarketRecord) : Prop :=
  ∃ pieces unfinished, records = List.flatten pieces ++ unfinished ∧
    (∀ piece ∈ pieces, OtherRecord piece ∨ DepthTransaction piece) ∧
    ((s = {} ∧ unfinished = []) ∨ (unfinished ≠ [] ∧ ∃ first, Under s first unfinished))

theorem Shaped.nil : Shaped {} [] := ⟨[], [], rfl, by simp, .inl ⟨rfl, rfl⟩⟩

/-- A step of a transaction keeps the shape, and makes the state inactive exactly with the end
flag. -/
theorem Continues.shaped {pieces : List (List BinaryMarketRecord)}
    (hpieces : ∀ piece ∈ pieces, OtherRecord piece ∨ DepthTransaction piece)
    (h : Continues first records r t) :
    Shaped t (pieces.flatten ++ records ++ [r]) ∧
      (t.active = false ↔ r.hasFlag recordDepthTransactionEnd = true) := by
  rcases h with ⟨hflag, hunder⟩ | ⟨hflag, rfl, htransaction⟩
  · refine ⟨⟨pieces, records ++ [r], by simp, hpieces, .inr ⟨by simp, first, hunder⟩⟩, ?_⟩
    rw [hflag, hunder.1.active]
    simp
  · refine ⟨⟨pieces ++ [records ++ [r]], [], by simp, ?_, .inl ⟨rfl, rfl⟩⟩, ?_⟩
    · intro piece hpiece
      rcases List.mem_append.mp hpiece with hpiece | hpiece
      · exact hpieces piece hpiece
      · rw [List.mem_singleton.mp hpiece]
        exact .inr htransaction
    · rw [hflag]
      decide

/-- An accepted record keeps the shape. A depth record makes the state inactive exactly if it carries
the end flag. -/
theorem advance_shaped (hs : Shaped s records)
    (h : advanceBinaryMarketDepthTransaction X r s = some t) :
    Shaped t (records ++ [r]) ∧
      (r.channel = depth → (t.active = false ↔ r.hasFlag recordDepthTransactionEnd = true)) := by
  obtain ⟨pieces, unfinished, rfl, hpieces, hstate⟩ := hs
  unfold advanceBinaryMarketDepthTransaction at h
  split at h
  · rename_i hc
    split at h
    · cases h
    rename_i hactive
    cases h
    refine ⟨?_, fun hdepth => absurd hdepth hc⟩
    rcases hstate with ⟨rfl, rfl⟩ | ⟨-, first, hunder⟩
    · refine ⟨pieces ++ [[r]], [], by simp, ?_, .inl ⟨rfl, rfl⟩⟩
      intro piece hpiece
      rcases List.mem_append.mp hpiece with hpiece | hpiece
      · exact hpieces piece hpiece
      · rw [List.mem_singleton.mp hpiece]
        exact .inl ⟨r, rfl, hc⟩
    · exact absurd hunder.1.active hactive
  rename_i hc
  rw [not_not] at hc
  split at h
  · cases h
  rename_i hvalid
  rw [Bool.not_eq_true, Bool.not_eq_false'] at hvalid
  split at h
  · cases h
  rename_i u hbegin
  split at h
  · cases h
  rename_i hsame
  rw [Bool.not_eq_true, Bool.not_eq_false'] at hsame
  rcases hstate with ⟨rfl, rfl⟩ | ⟨hne, first, hunder⟩
  · obtain ⟨hshaped, hend⟩ := (begin_continues hc hvalid hbegin hsame h).shaped hpieces
    exact ⟨hshaped, fun _ => hend⟩
  · -- The transaction is under way, so there is nothing to begin.
    have hu : u = s := by
      unfold beginDepthTransaction at hbegin
      rw [if_pos hunder.1.active] at hbegin
      exact (Option.some.inj hbegin).symm
    rw [hu] at h hsame
    obtain ⟨hshaped, hend⟩ := (hunder.continues hne hc hvalid hsame h).shaped hpieces
    exact ⟨hshaped, fun _ => hend⟩

theorem runDepthTransactions_shaped {more : List BinaryMarketRecord} (hs : Shaped s records)
    (h : runDepthTransactions X s more = some t) : Shaped t (records ++ more) := by
  induction more generalizing s records with
  | nil =>
    cases h
    rwa [List.append_nil]
  | cons r more ih =>
    rw [runDepthTransactions] at h
    split at h
    · cases h
    · rename_i u hu
      have hshaped := ih (advance_shaped hs hu).1 h
      rwa [List.append_assoc, List.singleton_append] at hshaped

theorem runDepthTransactions_append (s : BinaryMarketDepthTransactionState)
    (records more : List BinaryMarketRecord) :
    runDepthTransactions X s (records ++ more) =
      (runDepthTransactions X s records).bind fun t => runDepthTransactions X t more := by
  induction records generalizing s with
  | nil => rfl
  | cons r records ih =>
    rw [List.cons_append, runDepthTransactions, runDepthTransactions]
    split
    · rfl
    · exact ih _

theorem Under.unfinished (h : Under s first records) (hne : records ≠ []) :
    UnfinishedTransaction records := by
  obtain ⟨hs, parts, rest, hrecords, hphase⟩ := h
  have hhead : records.head? = some first := by
    cases records with
    | nil => exact absurd rfl hne
    | cons a rest => rw [List.head?_cons, hs.head a rfl]
  rcases hphase with hn | ⟨ht, hannounced⟩
  · refine ⟨first, parts, rest, ⟨hrecords, hhead, hs.same, hn.native_parts⟩, hs.notEnd,
      .inl ⟨hn.parts_lt, hn.chunks_of, ?_⟩⟩
    by_cases hnil : rest = []
    · rw [hnil]
      exact ⟨1, 0, by simp, (.nil : CutAll chunkLabels 32 1 0 []).numbered⟩
    · exact ⟨_, _, hn.chunks_lt hnil, hn.cut.numbered⟩
  · refine ⟨first, parts, rest, ⟨hrecords, hhead, hs.same, ht.native_parts⟩, hs.notEnd,
      .inr ⟨ht.parts_length, hannounced, ht.tail_of, ?_⟩⟩
    by_cases hnil : rest = []
    · rw [hnil]
      exact ⟨1, 0, by simp, (.nil : CutAll coverageLabels 5 1 0 []).numbered⟩
    · exact ⟨_, _, ht.tail_lt hnil, ht.cut.numbered⟩

/-- A sequence of records that is accepted from the inactive state is a concatenation of records of
other channels and depth transactions, the last one unfinished exactly if the state is active, and a
depth record leaves the state inactive exactly if it carries the end flag. -/
theorem accepted_depth_grammar {X : Platform} {records : List BinaryMarketRecord}
    {t : BinaryMarketDepthTransactionState} (h : runDepthTransactions X {} records = some t) :
    (∃ pieces unfinished, records = List.flatten pieces ++ unfinished ∧
      (∀ piece ∈ pieces, OtherRecord piece ∨ DepthTransaction piece) ∧
      (t.active = false → unfinished = []) ∧
      (t.active = true → UnfinishedTransaction unfinished)) ∧
    ∀ before r after u, records = before ++ r :: after → r.channel = depth →
      runDepthTransactions X {} (before ++ [r]) = some u →
      (u.active = false ↔ r.hasFlag recordDepthTransactionEnd = true) := by
  refine ⟨?_, ?_⟩
  · obtain ⟨pieces, unfinished, hrecords, hpieces, hstate⟩ := runDepthTransactions_shaped .nil h
    refine ⟨pieces, unfinished, hrecords, hpieces, ?_⟩
    rcases hstate with ⟨rfl, rfl⟩ | ⟨hne, first, hunder⟩
    · exact ⟨fun _ => rfl, fun hactive => by cases hactive⟩
    · refine ⟨fun hactive => ?_, fun _ => hunder.unfinished hne⟩
      rw [hunder.1.active] at hactive
      cases hactive
  · intro before r after u _ hc hrun
    rw [runDepthTransactions_append, Option.bind_eq_some_iff] at hrun
    obtain ⟨s, hs, hstep⟩ := hrun
    rw [runDepthTransactions] at hstep
    split at hstep
    · cases hstep
    · rename_i v hv
      cases hstep
      exact (advance_shaped (runDepthTransactions_shaped .nil hs) hv).2 hc

/-- A chunk of a snapshot of 33 levels, in two chunks. -/
def smallDepthChunk (flags shardSequence levelOffset partIndex levelCount : ℕ) : BinaryMarketRecord :=
  ⟨Raw.ofBytes 1024 (pack
    [4, 4, 8, 8, 8, 8, 8, 8, 8, 8, 8, 8, 2, 2, 2, 1, 1, 2, 2, 4,
      8, 8, 8, 4, 4, 2, 2, 2, 1, 1, 1, 1, 2, 2, 2, 8, 8, 824, 32]
    [1, flags, 1, 1, 1, 1, 0, 0, 1, 5, 5, shardSequence, 888, 0, 0, 3, 0, 0, 0, 0,
      1, 1, 0, 33, levelOffset, partIndex, 2, levelCount, 1, 3, 0, 0, 0, 1, 0, 1, 1, 0, 0])⟩

/-- A snapshot in two chunks, and the first chunk of another one. -/
def smallDepthRecords : List BinaryMarketRecord :=
  [smallDepthChunk 0x5 1 0 0 32, smallDepthChunk 0x8005 2 32 1 1, smallDepthChunk 0x5 3 0 0 32]

theorem accepted_depth_grammar_small :
    ∃ t, runDepthTransactions .stored {} smallDepthRecords = some t ∧ t.active = true ∧
      ∃ pieces unfinished, smallDepthRecords = List.flatten pieces ++ unfinished ∧
        (∀ piece ∈ pieces, OtherRecord piece ∨ DepthTransaction piece) ∧
        UnfinishedTransaction unfinished := by
  have hrun : (runDepthTransactions .stored {} smallDepthRecords).map
      BinaryMarketDepthTransactionState.active = some true := by decide +kernel
  obtain ⟨t, ht, hactive⟩ := Option.map_eq_some_iff.mp hrun
  obtain ⟨⟨pieces, unfinished, hrecords, hpieces, -, hunfinished⟩, -⟩ := accepted_depth_grammar ht
  exact ⟨t, ht, hactive, pieces, unfinished, hrecords, hpieces, hunfinished hactive⟩

end HftRecorder.Corpus
