import HftRecorder.Capture.CorpusConversion
import HftRecorder.Format.DepthTransaction

/-!
# Depth chunks of the parser's capture plane

The branch of `copyRecordPayload` for a chunk of depth levels repeats, on the parser's types, tests
that the corpus makes on its own: `validBinaryMarketDepthNativeState` on the states and the flags, and
`advanceBinaryMarketDepthTransaction` on the position of a chunk in its update. The enumerators, the
sizes, and the flags of the parser's side are parameters, and `ParserProtocol.Agrees` says that the
numbers which `copyRecordPayload` casts from one side to the other mean the same on both. Then the two
lists of tests are equivalent (`copyDepthChunk_eq_some_iff`): a chunk is taken if its reserved members
are zero, its levels are valid, its native part is one of the transaction's, and the record that it is
converted to passes the corpus's tests.
-/

namespace HftRecorder.Capture

open ByteLayout Corpus ParserProtocol

variable {π σ : Type}

/-- The record that a chunk of depth levels is converted to. -/
def ParserProtocol.convertedChunk (P : ParserProtocol π σ) (r : MarketCaptureRecord π) :
    BinaryMarketRecord :=
  P.outputRecord r r.payloadBytes (P.chunk r.payload).converted

def IsBit (b : UInt32) : Prop := ∃ i < 32, b.toBitVec = BitVec.twoPow 32 i

/-- The two sides mean the same by the numbers that are cast from one to the other. -/
structure ParserProtocol.Agrees (P : ParserProtocol π σ) (X : Platform) : Prop where
  recordFlag : ∀ flag, IsBit (P.recordFlag flag)
  channel : BinaryMarketChannel.ofCode (P.channelCode .depth).toNat = .depth
  chunkPayloadBytes : P.chunkPayloadBytes = 888
  levelsPerRecord : P.levelsPerRecord = kBinaryMarketDepthLevelsPerRecord
  frames : (P.frameSnapshot, P.frameDelta, P.frameState) = (1, 2, 3)
  states : (P.stateEmpty, P.statePartial, P.stateRebaseInFlight, P.stateHealthy, P.stateGap) =
    (0, 1, 2, 3, 4)
  failureNone : P.failureNone = 0
  failureConsumerBookRejected : P.failureConsumerBookRejected.toNat = X.consumerBookRejected

theorem ParserProtocol.Agrees.codes {P : ParserProtocol π σ} {X : Platform}
    (hD : P.Agrees X) : (P.frameSnapshot = 1 ∧ P.frameDelta = 2 ∧ P.frameState = 3) ∧
      P.stateEmpty = 0 ∧ P.statePartial = 1 ∧ P.stateRebaseInFlight = 2 ∧ P.stateHealthy = 3 ∧
      P.stateGap = 4 := by
  simpa only [Prod.mk.injEq] using And.intro hD.frames hD.states

/-- The conditions of `advanceBinaryMarketDepthTransaction` on the levels and the position of one
chunk, without those that look at the transaction or bound its parts. -/
def validDepthChunkGeometry (p : BinaryMarketDepthChunkPayload) : Bool :=
  !(p.transactionPartCount = 0 || p.partCount = 0 || p.partIndex ≥ p.partCount ||
    p.levelOffset ≠ p.partIndex * kBinaryMarketDepthLevelsPerRecord ||
    p.levelOffset > p.totalLevelCount || p.levelCount > kBinaryMarketDepthLevelsPerRecord ||
    p.levelCount ≠ min kBinaryMarketDepthLevelsPerRecord (p.totalLevelCount - p.levelOffset) ||
    p.partCount ≠ (p.totalLevelCount + kBinaryMarketDepthLevelsPerRecord - 1) /
      kBinaryMarketDepthLevelsPerRecord + (if p.totalLevelCount = 0 then 1 else 0))

/-- What else the transaction's test on a position has: the bound on the native parts, and the
counters of the transaction. -/
theorem validDepthChunkPosition_iff {X : Platform} {p : BinaryMarketDepthChunkPayload}
    {s : BinaryMarketDepthTransactionState} :
    validDepthChunkPosition X p s = true ↔
      validDepthChunkGeometry p = true ∧
        p.transactionPartCount ≤ X.maximumDepthTransactionParts ∧
        p.transactionPartCount = s.nativeParts ∧ p.transactionPartIndex = s.nextNative ∧
        p.partIndex = s.nextChunk := by
  unfold validDepthChunkPosition validDepthChunkGeometry
  simp only [Bool.not_eq_true', Bool.or_eq_false_iff, ne_eq, decide_not, Bool.not_eq_false',
    decide_eq_true_eq, decide_eq_false_iff_not, gt_iff_lt, not_lt]
  tauto

/-! ## Flags -/

theorem and_or_distrib (x a b : UInt32) : x &&& (a ||| b) = x &&& a ||| x &&& b :=
  UInt32.toBitVec_inj.mp BitVec.and_or_distrib_left

theorem and_or_eq_zero_iff (x a b : UInt32) : x &&& (a ||| b) = 0 ↔ x &&& a = 0 ∧ x &&& b = 0 := by
  rw [and_or_distrib, UInt32.or_eq_zero_iff]

theorem or_and_self (a b : UInt32) : (a ||| b) &&& a = a := by
  rw [← UInt32.toBitVec_inj]
  ext i
  simp only [UInt32.toBitVec_and, UInt32.toBitVec_or, BitVec.getElem_and, BitVec.getElem_or]
  cases a.toBitVec[i] <;> simp

theorem and_or_eq_self_iff (x a b : UInt32) :
    x &&& (a ||| b) = a ||| b ↔ x &&& a = a ∧ x &&& b = b := by
  constructor
  · intro h
    have hpart : ∀ c, (a ||| b) &&& c = c → x &&& c = c := by
      intro c hc
      rw [← hc, ← UInt32.and_assoc, h]
    exact ⟨hpart a (or_and_self a b), hpart b (by rw [UInt32.or_comm, or_and_self])⟩
  · rintro ⟨ha, hb⟩
    rw [and_or_distrib, ha, hb]

theorem IsBit.and_eq_self_iff {b : UInt32} (hb : IsBit b) (x : UInt32) :
    x &&& b = b ↔ x &&& b ≠ 0 := by
  obtain ⟨i, hi, hbit⟩ := hb
  have hne : BitVec.twoPow 32 i ≠ 0#32 := by
    intro h
    have hget := congrArg (BitVec.getLsbD · i) h
    simp only [BitVec.getLsbD_twoPow, BitVec.getLsbD_zero] at hget
    simp [hi] at hget
  rw [ne_eq, ← UInt32.toBitVec_inj, ← UInt32.toBitVec_inj, UInt32.toBitVec_and, hbit,
    BitVec.and_twoPow]
  split
  · simp [hne]
  · simp [hne.symm]

theorem isBit_corpusBit (flag : MarketCaptureRecordFlag) : IsBit flag.corpusBit := by
  unfold IsBit
  cases flag <;> decide

theorem corpusBit_and_corpusBit {f g : MarketCaptureRecordFlag} (h : f ≠ g) :
    f.corpusBit &&& g.corpusBit = 0 := by
  cases f <;> cases g <;> first | rfl | exact absurd rfl h

variable {P : ParserProtocol π σ} {X : Platform}

/-- A fold over flags sets the bit of a flag if it passes the flag and the record has it. -/
theorem foldl_flags_and (r : MarketCaptureRecord π) (flag : MarketCaptureRecordFlag)
    (flags : List MarketCaptureRecordFlag) (output : UInt32) :
    flags.foldl (fun output flag => if P.hasFlag r flag then output ||| flag.corpusBit else output)
        output &&& flag.corpusBit ≠ 0 ↔
      output &&& flag.corpusBit ≠ 0 ∨ (flag ∈ flags ∧ P.hasFlag r flag = true) := by
  induction flags generalizing output with
  | nil => simp
  | cons f flags ih =>
    rw [List.foldl_cons, ih, List.mem_cons]
    by_cases hf : P.hasFlag r f = true
    · rw [if_pos hf, UInt32.and_comm, and_or_distrib, ne_eq, UInt32.or_eq_zero_iff,
        UInt32.and_comm _ output]
      by_cases heq : flag = f
      · subst heq
        have hbit := ((isBit_corpusBit flag).and_eq_self_iff _).mp UInt32.and_self
        rw [UInt32.and_self] at hbit
        simp [hbit, hf]
      · simp [corpusBit_and_corpusBit heq, heq]
    · rw [if_neg hf]
      have hother : P.hasFlag r flag = true → flag ≠ f := by
        rintro hflag rfl
        exact hf hflag
      tauto

theorem hasFlag_outputRecord {r : MarketCaptureRecord π} (hchannel : r.channel ≠ .membership)
    (payloadBytes : UInt16) (payload : Raw 888) (flag : MarketCaptureRecordFlag) :
    (P.outputRecord r payloadBytes payload).hasFlag flag.corpusBit = P.hasFlag r flag := by
  have hflags : (P.outputRecord r payloadBytes payload).flags = P.convertRecordFlags r := by
    have h := congrArg UInt32.ofNat
      (field_outputRecord (P := P) r payloadBytes payload 1 rfl rfl (UInt32.toNat_lt _))
    rw [UInt32.ofNat_toNat, outputFlags, if_neg hchannel, UInt32.or_zero] at h
    exact h
  have hmem : flag ∈ MarketCaptureRecordFlag.all := by cases flag <;> simp [MarketCaptureRecordFlag.all]
  rw [BinaryMarketRecord.hasFlag, hflags, convertRecordFlags, Bool.eq_iff_iff,
    decide_eq_true_eq, foldl_flags_and]
  simp [hmem]

/-! ## The converted payload -/

theorem payload_outputRecord (r : MarketCaptureRecord π) (payloadBytes : UInt16)
    (payload : Raw 888) : (P.outputRecord r payloadBytes payload).payload = payload.bytes := by
  have hheader : (pack headerWidths (P.headerFields r payloadBytes)).length = 104 :=
    length_pack (P.length_headerFields r payloadBytes)
  rw [BinaryMarketRecord.payload, outputRecord, List.drop_left' hheader,
    List.take_left' payload.length_bytes]

/-- The members of a converted chunk are those of the chunk. -/
structure ReadsBack (p : BinaryMarketDepthChunkPayload) (source : MarketCaptureDepthChunkPayload) :
    Prop where
  totalLevelCount : p.totalLevelCount = source.totalLevelCount.toNat
  levelOffset : p.levelOffset = source.levelOffset.toNat
  partIndex : p.partIndex = source.partIndex.toNat
  partCount : p.partCount = source.partCount.toNat
  levelCount : p.levelCount = source.levelCount.toNat
  frameKind : p.frameKind = .ofCode source.frameKind.toNat
  state : p.state = .ofCode source.state.toNat
  failure : p.failure = source.failure.toNat
  transactionPartIndex : p.transactionPartIndex = source.transactionPartIndex.toNat
  transactionPartCount : p.transactionPartCount = source.transactionPartCount.toNat
  sourceReceiveRealtimeNs : p.sourceReceiveRealtimeNs = source.sourceReceiveRealtimeNs.toNat
  sourceFreshnessMonotonicNs :
    p.sourceFreshnessMonotonicNs = source.sourceFreshnessMonotonicNs.toNat

/-- The members of a converted chunk are those of the chunk. -/
theorem readsBack_convertedChunk (r : MarketCaptureRecord π) :
    ReadsBack (P.convertedChunk r).depthChunkPayload (P.chunk r.payload) := by
  have hbytes : (P.convertedChunk r).depthChunkPayload.bytes = (P.chunk r.payload).converted.bytes :=
    payload_outputRecord r _ _
  generalize (P.convertedChunk r).depthChunkPayload = p at hbytes
  generalize P.chunk r.payload = source at hbytes
  have hfield : ∀ (i width value : ℕ), MarketCaptureDepthChunkPayload.chunkWidths[i]? = some width →
      source.chunkFields[i]? = some value → value < 256 ^ width →
      field p.bytes (MarketCaptureDepthChunkPayload.chunkWidths.take i).sum width = value := by
    intro i width value hwidth hvalue hlt
    rw [hbytes, ← Nat.mod_eq_of_lt hlt]
    exact field_pack_append _ rfl hwidth hvalue
  exact
    { totalLevelCount := hfield 3 4 _ rfl rfl (UInt32.toNat_lt _)
      levelOffset := hfield 4 4 _ rfl rfl (UInt32.toNat_lt _)
      partIndex := hfield 5 2 _ rfl rfl (UInt16.toNat_lt _)
      partCount := hfield 6 2 _ rfl rfl (UInt16.toNat_lt _)
      levelCount := hfield 7 2 _ rfl rfl (UInt16.toNat_lt _)
      frameKind := congrArg _ (hfield 8 1 _ rfl rfl (UInt8.toNat_lt _))
      state := congrArg _ (hfield 9 1 _ rfl rfl (UInt8.toNat_lt _))
      failure := hfield 10 1 _ rfl rfl (UInt8.toNat_lt _)
      transactionPartIndex := hfield 12 2 _ rfl rfl (UInt16.toNat_lt _)
      transactionPartCount := hfield 13 2 _ rfl rfl (UInt16.toNat_lt _)
      sourceReceiveRealtimeNs := hfield 15 8 _ rfl rfl (UInt64.toNat_lt _)
      sourceFreshnessMonotonicNs := hfield 16 8 _ rfl rfl (UInt64.toNat_lt _) }

/-! ## The tests on positions -/

/-- The parser's tests on how an update of `total` levels is cut into parts of 32 are the corpus's.
The parser's are made in 32 bits, after a bound that keeps the rounded division from wrapping. -/
theorem cut_iff {total offset count index parts : ℕ} (htotal : total < 2 ^ 32)
    (hparts : parts < 2 ^ 16) (hcount : count < 2 ^ 16) :
    (¬ total > 2 ^ 32 - 1 - (32 - 1) ∧
      (parts ≠ 0 ∧ parts = (if total = 0 then 1 else (total + 32 - 1) % 2 ^ 32 / 32) ∧
        index < parts ∧ count ≤ 32 ∧ offset = index * 32 % 2 ^ 32 ∧ offset ≤ total ∧
        count ≤ total - offset) ∧
      ((total = 0 ↔ count = 0) ∧ (total = 0 → offset = 0 ∧ parts = 1)) ∧
      (if index + 1 = parts then (offset + count) % 2 ^ 32 = total else count = 32)) ↔
    parts ≠ 0 ∧ index < parts ∧ offset = index * 32 ∧ offset ≤ total ∧ count ≤ 32 ∧
      count = min 32 (total - offset) ∧
      parts = (total + 32 - 1) / 32 + (if total = 0 then 1 else 0) := by
  constructor
  · rintro ⟨hbound, ⟨hne, hexpected, hindex, hle, hoffset, hstart, hrest⟩, ⟨hzero, hempty⟩, hlast⟩
    refine ⟨hne, hindex, by omega, hstart, hle, ?_, ?_⟩
    · split at hlast <;> omega
    · split at hexpected
      · simp_all
      · simp_all
        omega
  · rintro ⟨hne, hindex, hoffset, hstart, hle, hsize, hexpected⟩
    -- The parts are counted in 16 bits, so the levels are far below the bound.
    have hsmall : total ≤ 2 ^ 16 * 32 := by split at hexpected <;> omega
    refine ⟨by omega, ⟨hne, ?_, hindex, hle, by omega, hstart, by omega⟩, ⟨?_, ?_⟩, ?_⟩
    · split
      · simp_all
      · simp_all
        omega
    · split at hexpected <;> omega
    · split at hexpected <;> omega
    · split <;> split at hexpected <;> omega

variable {source : MarketCaptureDepthChunkPayload}

/-- The parser's tests on positions are the corpus's, and the ranges of the enumerators, the place of
the native part, and the reserved members besides. -/
theorem chunkPositionAllowed_iff (hD : P.Agrees X) {p : BinaryMarketDepthChunkPayload}
    (hp : ReadsBack p source) :
    P.chunkPositionAllowed source = true ↔
      validDepthChunkGeometry p = true ∧
        (source.frameKind = 1 ∨ source.frameKind = 2 ∨ source.frameKind = 3) ∧ source.state.toNat ≤ 4 ∧
        source.failure.toNat ≤ X.consumerBookRejected ∧
        source.transactionPartIndex < source.transactionPartCount ∧
        source.reserved8 = 0 ∧ source.reserved16 = 0 := by
  have hcut := @cut_iff source.totalLevelCount.toNat source.levelOffset.toNat
    source.levelCount.toNat source.partIndex.toNat source.partCount.toNat (UInt32.toNat_lt _)
    (UInt16.toNat_lt _) (UInt16.toNat_lt _)
  have hgeometry : validDepthChunkGeometry p = true ↔ source.transactionPartCount.toNat ≠ 0 ∧
      source.partCount.toNat ≠ 0 ∧ source.partIndex.toNat < source.partCount.toNat ∧
      source.levelOffset.toNat = source.partIndex.toNat * 32 ∧
      source.levelOffset.toNat ≤ source.totalLevelCount.toNat ∧ source.levelCount.toNat ≤ 32 ∧
      source.levelCount.toNat = min 32 (source.totalLevelCount.toNat - source.levelOffset.toNat) ∧
      source.partCount.toNat = (source.totalLevelCount.toNat + 32 - 1) / 32 +
        (if source.totalLevelCount.toNat = 0 then 1 else 0) := by
    rw [validDepthChunkGeometry, hp.transactionPartCount, hp.partCount, hp.partIndex,
      hp.levelOffset, hp.totalLevelCount, hp.levelCount, kBinaryMarketDepthLevelsPerRecord]
    simp only [Bool.not_eq_true', Bool.or_eq_false_iff, ne_eq, decide_not, Bool.not_eq_false',
      decide_eq_true_eq, decide_eq_false_iff_not, gt_iff_lt, ge_iff_le, not_lt, not_le, and_assoc]
  obtain ⟨hframes, hstates⟩ := hD.codes
  unfold chunkPositionAllowed
  rw [hD.levelsPerRecord, kBinaryMarketDepthLevelsPerRecord, hframes.1, hframes.2.1, hframes.2.2,
    hstates.1, hstates.2.2.2.2, hD.failureNone]
  simp only [Bool.and_eq_true, Bool.not_eq_true', Bool.or_eq_false_iff, ne_eq, decide_not,
    Bool.not_eq_false', Bool.and_eq_false_iff, bne_eq_false_iff_eq, decide_eq_decide,
    Bool.ite_eq_true_distrib, decide_eq_true_eq, decide_eq_false_iff_not, gt_iff_lt, ge_iff_le,
    UInt16.not_le, UInt8.not_lt, ← UInt16.toNat_inj, UInt16.lt_iff_toNat_lt, UInt16.toNat_zero,
    UInt16.toNat_one, UInt8.le_iff_toNat_le, UInt8.toNat_zero, Nat.zero_le, true_and,
    hD.failureConsumerBookRejected, and_assoc, or_assoc]
  grind

/-! ## The tests on states and flags -/

theorem ofCode_eq_state_iff (n : UInt8) :
    (BinaryMarketDepthState.ofCode n.toNat = .empty ↔ n = 0) ∧
      (BinaryMarketDepthState.ofCode n.toNat = .partialDepth ↔ n = 1) ∧
      (BinaryMarketDepthState.ofCode n.toNat = .rebaseInFlight ↔ n = 2) ∧
      (BinaryMarketDepthState.ofCode n.toNat = .healthy ↔ n = 3) ∧
      (BinaryMarketDepthState.ofCode n.toNat = .gap ↔ n = 4) := by
  simp only [← UInt8.toNat_inj]
  unfold BinaryMarketDepthState.ofCode
  split <;> simp_all

theorem ofCode_eq_frameKind_iff (n : UInt8) :
    (BinaryMarketDepthFrameKind.ofCode n.toNat = .snapshot ↔ n = 1) ∧
      (BinaryMarketDepthFrameKind.ofCode n.toNat = .delta ↔ n = 2) ∧
      (BinaryMarketDepthFrameKind.ofCode n.toNat = .state ↔ n = 3) := by
  simp only [← UInt8.toNat_inj]
  unfold BinaryMarketDepthFrameKind.ofCode
  split <;> simp_all

variable {r : MarketCaptureRecord π}

theorem hasFlag_convertedChunk (hchunk : P.isDepthChunk r = true) (flag : MarketCaptureRecordFlag) :
    (P.convertedChunk r).hasFlag flag.corpusBit = P.hasFlag r flag := by
  simp only [isDepthChunk, Bool.and_eq_true, decide_eq_true_eq] at hchunk
  exact hasFlag_outputRecord (by simp [hchunk.1]) _ _ flag

theorem channel_convertedChunk (hD : P.Agrees X) (hchunk : P.isDepthChunk r = true)
    (hsize : r.payloadBytes = 888) :
    (P.convertedChunk r).channel = .depth ∧ (P.convertedChunk r).payloadBytes = 888 := by
  simp only [isDepthChunk, Bool.and_eq_true, decide_eq_true_eq] at hchunk
  have hchannel := congrArg BinaryMarketChannel.ofCode (field_outputRecord (P := P) r r.payloadBytes
    (P.chunk r.payload).converted 15 rfl rfl (code_outputChannel_lt r))
  have hbytes := field_outputRecord (P := P) r r.payloadBytes (P.chunk r.payload).converted 12 rfl
    rfl (UInt16.toNat_lt _)
  rw [ofCode_outputChannel, outputChannel, if_neg (by simp [hchunk.1]), hchunk.1,
    hD.channel] at hchannel
  exact ⟨hchannel, hbytes.trans (congrArg UInt16.toNat hsize)⟩

/-- The record that a chunk is converted to is a composed cut if the chunk's flags and members say
so. -/
theorem composedCut_iff (hD : P.Agrees X) (hchunk : P.isDepthChunk r = true)
    (hsize : r.payloadBytes = 888) (hsource : P.chunk r.payload = source) :
    binaryMarketDepthRecordIsComposedCut (P.convertedChunk r) = true ↔
      (P.hasFlag r .depthSnapshot = true ∧ P.hasFlag r .depthSourcePosition = true ∧
        P.hasFlag r .depthHasCoverage = true) ∧
      (P.hasFlag r .depthDelta = false ∧ P.hasFlag r .depthState = false ∧
        P.hasFlag r .depthRebase = false) ∧
      source.frameKind = 1 ∧ source.transactionPartIndex = 0 ∧ source.transactionPartCount = 1 ∧
      (source.state = 3 ∨ source.state = 1 ∨ source.state = 4 ∨
        (source.state = 0 ∧ source.totalLevelCount = 0 ∧ source.levelCount = 0)) := by
  obtain ⟨hchannel, hbytes⟩ := channel_convertedChunk hD hchunk hsize
  have hp := readsBack_convertedChunk (P := P) r
  rw [hsource] at hp
  have hclear : ∀ flag : MarketCaptureRecordFlag,
      (P.convertedChunk r).flags &&& flag.corpusBit = 0 ↔ P.hasFlag r flag = false := by
    intro flag
    rw [← hasFlag_convertedChunk (P := P) hchunk flag, BinaryMarketRecord.hasFlag,
      decide_eq_false_iff_not, not_not]
  have hset : ∀ flag : MarketCaptureRecordFlag,
      (P.convertedChunk r).flags &&& flag.corpusBit = flag.corpusBit ↔ P.hasFlag r flag = true := by
    intro flag
    rw [(isBit_corpusBit flag).and_eq_self_iff, ne_eq, hclear, Bool.not_eq_false]
  have hrequired : (P.convertedChunk r).flags &&&
      (recordDepthSnapshot ||| recordDepthSourcePosition ||| recordDepthHasCoverage) =
        recordDepthSnapshot ||| recordDepthSourcePosition ||| recordDepthHasCoverage ↔
      P.hasFlag r .depthSnapshot = true ∧ P.hasFlag r .depthSourcePosition = true ∧
        P.hasFlag r .depthHasCoverage = true := by
    rw [and_or_eq_self_iff, and_or_eq_self_iff, and_assoc, ← hset, ← hset, ← hset]
    rfl
  have hforbidden : (P.convertedChunk r).flags &&&
      (recordDepthDelta ||| recordDepthState ||| recordDepthRebase ||| recordDepthCoverage) = 0 ↔
      P.hasFlag r .depthDelta = false ∧ P.hasFlag r .depthState = false ∧
        P.hasFlag r .depthRebase = false := by
    have hcovered : (P.convertedChunk r).flags &&& recordDepthCoverage = 0 := by
      simp only [isDepthChunk, Bool.and_eq_true, Bool.not_eq_true'] at hchunk
      exact (hclear .depthCoverage).mpr hchunk.2
    rw [and_or_eq_zero_iff, and_or_eq_zero_iff, and_or_eq_zero_iff, and_assoc, and_iff_left hcovered,
      ← hclear, ← hclear, ← hclear]
    exact and_assoc
  unfold binaryMarketDepthRecordIsComposedCut
  simp only [Bool.and_eq_true, Bool.or_eq_true, decide_eq_true_eq, hchannel, hbytes, true_and,
    hrequired, hforbidden, hp.frameKind, hp.state, hp.transactionPartIndex,
    hp.transactionPartCount, hp.totalLevelCount, hp.levelCount, ofCode_eq_state_iff,
    ofCode_eq_frameKind_iff, ← UInt16.toNat_inj, ← UInt32.toNat_inj, UInt16.toNat_zero,
    UInt16.toNat_one, UInt32.toNat_zero, and_assoc, or_assoc]

theorem composedChunk_iff (hD : P.Agrees X) (hsource : P.chunk r.payload = source) :
    P.composedChunk r = true ↔
      source.frameKind = 1 ∧ P.hasFlag r .depthRebase = false ∧
      (P.hasFlag r .depthSourcePosition = true ∧ P.hasFlag r .depthHasCoverage = true) ∧
      source.transactionPartIndex = 0 ∧ source.transactionPartCount = 1 ∧
      (source.state = 1 ∨ source.state = 3 ∨ source.state = 4 ∨
        (source.state = 0 ∧ source.totalLevelCount = 0 ∧ source.levelCount = 0)) := by
  obtain ⟨hframes, hstates⟩ := hD.codes
  have hset : ∀ flag, r.flags &&& P.recordFlag flag = P.recordFlag flag ↔ P.hasFlag r flag = true := by
    intro flag
    rw [(hD.recordFlag flag).and_eq_self_iff, hasFlag, decide_eq_true_eq]
  simp only [composedChunk, hsource, hframes, hstates, Bool.and_eq_true, Bool.or_eq_true,
    Bool.not_eq_true', decide_eq_true_eq, and_or_eq_self_iff, hset, and_assoc, or_assoc]

/-- The two sides agree on composed cuts when the flags are those of the kind and the state. -/
theorem composedCut_eq_composedChunk (hD : P.Agrees X) (hchunk : P.isDepthChunk r = true)
    (hsize : r.payloadBytes = 888) (hsource : P.chunk r.payload = source)
    (hsnapshot : P.hasFlag r .depthSnapshot = decide (source.frameKind = 1))
    (hdelta : P.hasFlag r .depthDelta = decide (source.frameKind = 2))
    (hstate : P.hasFlag r .depthState = decide (source.frameKind = 3)) :
    binaryMarketDepthRecordIsComposedCut (P.convertedChunk r) = P.composedChunk r := by
  rw [Bool.eq_iff_iff, composedCut_iff hD hchunk hsize hsource, composedChunk_iff hD hsource,
    hsnapshot, hdelta, hstate]
  constructor
  · rintro ⟨⟨-, hposition⟩, ⟨-, -, hrebase⟩, hkind, hindex, hcount, hcut⟩
    refine ⟨hkind, hrebase, hposition, hindex, hcount, ?_⟩
    tauto
  · rintro ⟨hkind, hrebase, hposition, hindex, hcount, hcut⟩
    refine ⟨⟨decide_eq_true hkind, hposition⟩, ⟨?_, ?_, hrebase⟩, hkind, hindex, hcount, ?_⟩
    · rw [hkind]; rfl
    · rw [hkind]; rfl
    · tauto

theorem frameKind_known_iff {kind : UInt8} :
    (!decide (kind = 1) && !decide (kind = 2) && !decide (kind = 3)) = false ↔
      kind = 1 ∨ kind = 2 ∨ kind = 3 := by
  simp only [Bool.and_eq_false_iff, Bool.not_eq_false', decide_eq_true_eq, or_assoc]

theorem state_le_of_known (hD : P.Agrees X) (hsource : P.chunk r.payload = source)
    (h : (!decide (source.state = 1) && !decide (source.state = 3) && !decide (source.state = 2) &&
      !decide (source.state = 4) && !P.composedChunk r) = false) : source.state.toNat ≤ 4 := by
  have hcodes : source.state = 0 ∨ source.state = 1 ∨ source.state = 2 ∨ source.state = 3 ∨
      source.state = 4 := by
    simp only [Bool.and_eq_false_iff, Bool.not_eq_false', decide_eq_true_eq,
      composedChunk_iff hD hsource] at h
    tauto
  rcases hcodes with h | h | h | h | h <;> rw [h] <;> decide

/-- The parser's tests on states and flags are the corpus's, for chunks whose enumerators are in
range. -/
theorem chunkStateAllowed_iff (hD : P.Agrees X) (hchunk : P.isDepthChunk r = true)
    (hsize : r.payloadBytes = 888) (hsource : P.chunk r.payload = source) :
    validBinaryMarketDepthNativeState X (P.convertedChunk r) = true ↔
      P.chunkStateAllowed r = true ∧
        (source.frameKind = 1 ∨ source.frameKind = 2 ∨ source.frameKind = 3) ∧
        source.state.toNat ≤ 4 ∧ source.failure.toNat ≤ X.consumerBookRejected := by
  have hp := readsBack_convertedChunk (P := P) r
  rw [hsource] at hp
  have hcomposed := composedCut_eq_composedChunk hD hchunk hsize hsource
  obtain ⟨hframes, hstates⟩ := hD.codes
  have hflag := hasFlag_convertedChunk (P := P) hchunk
  have hcompatible := hflag .traderReplayCompatible
  have hsnapshot := hflag .depthSnapshot
  have hdelta := hflag .depthDelta
  have hstate := hflag .depthState
  have hpartial := hflag .depthPartial
  have hrebase := hflag .depthRebase
  simp only [MarketCaptureRecordFlag.corpusBit] at hcompatible hsnapshot hdelta hstate hpartial hrebase
  have hzero8 : ∀ n : UInt8, n.toNat = 0 ↔ n = 0 := fun n => UInt8.toNat_inj (b := 0)
  have hzero16 : ∀ n : UInt16, n.toNat = 0 ↔ n = 0 := fun n => UInt16.toNat_inj (b := 0)
  have hone16 : ∀ n : UInt16, n.toNat = 1 ↔ n = 1 := fun n => UInt16.toNat_inj (b := 1)
  have hzero32 : ∀ n : UInt32, n.toNat = 0 ↔ n = 0 := fun n => UInt32.toNat_inj (b := 0)
  have hzero64 : ∀ n : UInt64, n.toNat = 0 ↔ n = 0 := fun n => UInt64.toNat_inj (b := 0)
  have hlate : ∀ n : UInt64, n.toNat > 0x7fffffffffffffff ↔ n > 0x7fffffffffffffff :=
    fun n => (UInt64.lt_iff_toNat_lt (a := 0x7fffffffffffffff)).symm
  unfold validBinaryMarketDepthNativeState chunkStateAllowed
  -- Both lists of tests become conjunctions over the same members and flags.
  simp only [hsource, hframes, hstates, hD.failureNone, hcompatible, hsnapshot, hdelta, hstate,
    hpartial, hrebase, hp.frameKind, hp.state, hp.transactionPartIndex, hp.transactionPartCount,
    hp.totalLevelCount, hp.failure, hp.sourceReceiveRealtimeNs, hp.sourceFreshnessMonotonicNs,
    ofCode_eq_state_iff, ofCode_eq_frameKind_iff, hzero8, hzero16, hone16, hzero32, hzero64, hlate,
    Bool.not_eq_true', Bool.or_eq_false_iff, ne_eq, decide_not, bne_eq_false_iff_eq, and_assoc]
  constructor
  · rintro ⟨hknown, hkind, hfailure, hsnapshotFlag, hdeltaFlag, hstateFlag, hpartialFlag,
      hrebaseFlag, htests⟩
    rw [hcomposed hsnapshotFlag hdeltaFlag hstateFlag] at hknown htests
    obtain ⟨hcompatibleFlag, hlevels, hstateLevels, hnoFailure, hgapFailure, hemptyFailure, hupdate,
      hrebaseParts, hsinglePart, hstateRecord, htimes⟩ := htests
    have hkinds := frameKind_known_iff.mp hkind
    refine ⟨hknown, hsnapshotFlag, hdeltaFlag, hstateFlag, ?_, hpartialFlag, hcompatibleFlag,
      hlevels, hstateLevels, hnoFailure, hemptyFailure, hgapFailure, hupdate, hrebaseFlag,
      hrebaseParts, hsinglePart, ?_, htimes, hkinds, ?_, by simpa using hfailure⟩
    · rw [hsnapshotFlag, hdeltaFlag, hstateFlag]
      rcases hkinds with h | h | h <;> rw [h] <;> rfl
    · rw [hpartialFlag, hrebaseFlag]
      exact hstateRecord
    · exact state_le_of_known hD hsource hknown
  · rintro ⟨hknown, hsnapshotFlag, hdeltaFlag, hstateFlag, -, hpartialFlag, hcompatibleFlag,
      hlevels, hstateLevels, hnoFailure, hemptyFailure, hgapFailure, hupdate, hrebaseFlag,
      hrebaseParts, hsinglePart, hstateRecord, htimes, hkinds, -, hfailure⟩
    rw [hpartialFlag, hrebaseFlag] at hstateRecord
    rw [hcomposed hsnapshotFlag hdeltaFlag hstateFlag]
    exact ⟨hknown, frameKind_known_iff.mpr hkinds, by simpa using hfailure, hsnapshotFlag,
      hdeltaFlag, hstateFlag, hpartialFlag, hrebaseFlag, hcompatibleFlag, hlevels, hstateLevels,
      hnoFailure, hgapFailure, hemptyFailure, hupdate, hrebaseParts, hsinglePart, hstateRecord,
      htimes⟩

/-! ## The two validators -/

/-- What the branch takes: a chunk with zero reserved members and valid levels, of a native part that
the transaction has, whose converted record passes the corpus's tests. -/
theorem copyDepthChunk_eq_some_iff (hD : P.Agrees X) (hchunk : P.isDepthChunk r = true)
    (hsource : P.chunk r.payload = source) {output : UInt16 × Raw 888} :
    P.copyDepthChunk r = some output ↔
      output = (r.payloadBytes, source.converted) ∧ r.payloadBytes = 888 ∧
        (source.reserved8 = 0 ∧ source.reserved16 = 0) ∧ P.levelsAllowed source = true ∧
        source.transactionPartIndex < source.transactionPartCount ∧
        validBinaryMarketDepthNativeState X (P.convertedChunk r) = true ∧
        validDepthChunkGeometry (P.convertedChunk r).depthChunkPayload = true := by
  have hp := readsBack_convertedChunk (P := P) r
  rw [hsource] at hp
  by_cases hsize : r.payloadBytes = 888
  · have hposition := chunkPositionAllowed_iff hD hp
    have hstate := chunkStateAllowed_iff hD hchunk hsize hsource
    have htaken : P.copyDepthChunk r = some output ↔ output = (r.payloadBytes, source.converted) ∧
        P.chunkPositionAllowed source = true ∧ P.chunkStateAllowed r = true ∧
        P.levelsAllowed source = true := by
      unfold copyDepthChunk
      rw [hsource, hD.chunkPayloadBytes, if_neg (not_not.mpr hsize)]
      cases P.chunkPositionAllowed source <;> cases P.chunkStateAllowed r <;>
        cases P.levelsAllowed source <;> simp [eq_comm]
    grind
  · have hrefused : P.copyDepthChunk r = none := by
      unfold copyDepthChunk
      rw [hD.chunkPayloadBytes, if_pos hsize]
    rw [hrefused]
    simp [hsize]

theorem copyRecordPayload_of_isDepthChunk (hchunk : P.isDepthChunk r = true) :
    P.copyRecordPayload X r = P.copyDepthChunk r := by
  simp only [isDepthChunk, Bool.and_eq_true, decide_eq_true_eq, Bool.not_eq_true'] at hchunk
  simp only [copyRecordPayload, hchunk.1, hchunk.2, Bool.false_eq_true, if_false]

/-- The record of every chunk that `copyRecordPayload` takes passes the corpus's tests on the state
and on the geometry of a chunk. Every chunk with zero reserved members, valid levels, and a native
part below the count of them is taken if its converted record passes those tests. The transaction's
own test is the one on the geometry, a bound on the native parts, and the transaction's counters. -/
theorem depth_validators_agree (hD : P.Agrees X) (r : MarketCaptureRecord π)
    (hchunk : P.isDepthChunk r = true) :
    (∀ payloadBytes payload, P.copyRecordPayload X r = some (payloadBytes, payload) →
        validBinaryMarketDepthNativeState X (P.outputRecord r payloadBytes payload) = true ∧
        validDepthChunkGeometry (P.outputRecord r payloadBytes payload).depthChunkPayload = true) ∧
      (r.payloadBytes = P.chunkPayloadBytes → (P.chunk r.payload).reserved8 = 0 →
        (P.chunk r.payload).reserved16 = 0 → P.levelsAllowed (P.chunk r.payload) = true →
        (P.chunk r.payload).transactionPartIndex < (P.chunk r.payload).transactionPartCount →
        validBinaryMarketDepthNativeState X (P.convertedChunk r) = true →
        validDepthChunkGeometry (P.convertedChunk r).depthChunkPayload = true →
        P.copyRecordPayload X r = some (r.payloadBytes, (P.chunk r.payload).converted)) ∧
      ∀ (p : BinaryMarketDepthChunkPayload) (s : BinaryMarketDepthTransactionState),
        validDepthChunkPosition X p s = true ↔
          validDepthChunkGeometry p = true ∧
            p.transactionPartCount ≤ X.maximumDepthTransactionParts ∧
            p.transactionPartCount = s.nativeParts ∧ p.transactionPartIndex = s.nextNative ∧
            p.partIndex = s.nextChunk := by
  rw [copyRecordPayload_of_isDepthChunk hchunk]
  refine ⟨?_, ?_, fun p s => validDepthChunkPosition_iff⟩
  · intro payloadBytes payload h
    obtain ⟨houtput, -, -, -, -, hstate, hgeometry⟩ :=
      (copyDepthChunk_eq_some_iff hD hchunk rfl).mp h
    cases houtput
    exact ⟨hstate, hgeometry⟩
  · intro hsize hreserved8 hreserved16 hlevels hnative hstate hgeometry
    rw [hD.chunkPayloadBytes] at hsize
    exact (copyDepthChunk_eq_some_iff hD hchunk rfl).mpr
      ⟨rfl, hsize, ⟨hreserved8, hreserved16⟩, hlevels, hnative, hstate, hgeometry⟩

/-- An update of one level from a healthy source. -/
def smallChunk : MarketCaptureRecord SamplePayload where
  sourceId := 1
  flags := recordTraderReplayCompatible ||| recordDepthDelta
  sourceGeneration := 1
  sessionEpoch := 1
  eventSequence := 1
  frameSequence := 1
  nativeIdentityFirst := 0
  nativeIdentitySecond := 0
  exchangeTimestampNs := 0
  receiveRealtimeNs := 0
  receiveMonotonicNs := 0
  shardSequence := 1
  payloadBytes := 888
  shardIndex := 0
  sourceFlags := 0
  channel := .depth
  nativeIdentityShape := 0
  eventOrdinal := 0
  payload := {}

theorem agrees_smallProtocol : smallProtocol.Agrees Platform.stored where
  recordFlag := isBit_corpusBit
  channel := rfl
  chunkPayloadBytes := rfl
  levelsPerRecord := rfl
  frames := rfl
  states := rfl
  failureNone := rfl
  failureConsumerBookRejected := rfl

/-- The update is taken, and its record passes the corpus's tests. -/
theorem smallChunk_agrees :
    smallProtocol.copyRecordPayload .stored smallChunk =
        some (888, smallChunk.payload.chunk.converted) ∧
      validBinaryMarketDepthNativeState Platform.stored (smallProtocol.convertedChunk smallChunk) =
        true := by
  have hagree := depth_validators_agree agrees_smallProtocol smallChunk (by decide)
  have htaken := hagree.2.1 rfl rfl rfl (by decide) (by decide) (by decide +kernel)
    (by decide +kernel)
  exact ⟨htaken, (hagree.1 _ _ htaken).1⟩

end HftRecorder.Capture
