import HftRecorder.Lib.Scan
import HftRecorder.Writer.State

/-!
# The Recorder reference payload

`RecorderReference.hpp`: the history of reference snapshots that a cut carries as opaque bytes. A
snapshot has a product, a dataset, what was found there, when it was acquired, from which cut on it
is visible, and the producer's header with its rows. `writeRecorderReferences` and
`readRecorderReferences` are the two directions of the format; `readRecorderReferences_encode` and
`of_readRecorderReferences` say that they are inverse, the second that the reader accepts nothing
that the writer would not produce.

The two structs of `hft_parser` that a snapshot holds, and the tests on them, are parameters: the
sources are not part of the repository.
-/

namespace HftRecorder.Corpus

open ByteLayout

/-! ## What is taken from `hft_parser` -/

/-- The datasets that the Recorder acquires, of `hft_parser::ipc::ReferenceDatasetKind`. -/
inductive ReferenceDatasetKind
  | instruments
  | ticker24h
  | deliveryBasis
  | centralBankRate
  | centralBankDecision
  deriving DecidableEq, Repr

/-- The structs and tests of `hft_parser` that the reference payload uses. -/
structure ReferenceContract where
  /-- `sizeof(ReferenceProductIdentity)`. -/
  productBytes : ℕ
  /-- `sizeof(CurrentReferenceHeader)`. -/
  headerBytes : ℕ
  /-- `ReferenceProductIdentity::exchangeRaw`. -/
  exchangeRaw : Raw productBytes → UInt8
  /-- `ReferenceProductIdentity::marketRaw`. -/
  marketRaw : Raw productBytes → UInt8
  /-- A zeroed `ReferenceProductIdentity` with its exchange and market set. -/
  productFor : UInt8 → UInt8 → Raw productBytes
  /-- `validReferenceProductIdentity`. -/
  validReferenceProductIdentity : Raw productBytes → Bool
  /-- The stored value of a dataset. -/
  datasetRaw : ReferenceDatasetKind → UInt8
  /-- `referenceRecordBytes`, zero for an unknown dataset. -/
  referenceRecordBytes : UInt8 → ℕ
  /-- `validCurrentReferenceHeader`. -/
  validCurrentReferenceHeader : Raw headerBytes → Bool
  /-- A value-initialised `CurrentReferenceHeader`. -/
  defaultHeader : Raw headerBytes
  /-- `CurrentReferenceHeader::producerEpoch`. -/
  producerEpoch : Raw headerBytes → UInt64
  /-- `CurrentReferenceHeader::generation`. -/
  generation : Raw headerBytes → UInt64
  /-- `CurrentReferenceHeader::snapshot.product`. -/
  snapshotProduct : Raw headerBytes → Raw productBytes
  /-- `CurrentReferenceHeader::snapshot.dataset`. -/
  snapshotDataset : Raw headerBytes → UInt8
  /-- `CurrentReferenceHeader::snapshot.totalRows`. -/
  snapshotTotalRows : Raw headerBytes → ℕ
  /-- `CurrentReferenceHeader::snapshot.rowBytes`. -/
  snapshotRowBytes : Raw headerBytes → ℕ

/-- What the Recorder relies on of these. -/
structure ReferenceContract.Lawful (C : ReferenceContract) : Prop where
  exchangeRaw_productFor : ∀ exchange market,
    C.exchangeRaw (C.productFor exchange market) = exchange
  marketRaw_productFor : ∀ exchange market, C.marketRaw (C.productFor exchange market) = market
  /-- The enumerators have different values. -/
  datasetRaw_injective : Function.Injective C.datasetRaw

/-- A valid product is determined by its exchange and its market: its other bytes are clear, say. -/
def ReferenceContract.ProductsDetermined (C : ReferenceContract) : Prop :=
  ∀ {p q}, C.validReferenceProductIdentity p = true → C.validReferenceProductIdentity q = true →
    C.exchangeRaw p = C.exchangeRaw q → C.marketRaw p = C.marketRaw q → p = q

/-! ## Snapshots -/

/-- `RecorderReferencePresence`. -/
inductive RecorderReferencePresence
  | present
  | missing
  | generationChanged
  | protocolRejected
  | ioFailure
  | capacityExceeded
  | other (code : ℕ)
  deriving DecidableEq, Repr

namespace RecorderReferencePresence

def ofCode : ℕ → RecorderReferencePresence
  | 1 => present
  | 2 => missing
  | 3 => generationChanged
  | 4 => protocolRejected
  | 5 => ioFailure
  | 6 => capacityExceeded
  | n => other n

def code : RecorderReferencePresence → ℕ
  | present => 1
  | missing => 2
  | generationChanged => 3
  | protocolRejected => 4
  | ioFailure => 5
  | capacityExceeded => 6
  | other n => n

/-- The presence is one of those that the enumeration names. -/
def named : RecorderReferencePresence → Bool
  | other _ => false
  | _ => true

theorem code_ofCode (n : ℕ) : (ofCode n).code = n := by
  unfold ofCode
  split <;> rfl

theorem ofCode_code {p : RecorderReferencePresence} (h : p.named = true) : ofCode p.code = p := by
  cases p with
  | other n => cases h
  | _ => rfl

theorem code_lt {p : RecorderReferencePresence} (h : p.named = true) : p.code < 256 ^ 1 := by
  cases p with
  | other n => cases h
  | _ => decide

end RecorderReferencePresence

variable {C : ReferenceContract}

/-- `RecorderReferenceSnapshot`. The acquisition times are the Recorder's own, and the visibility is
zero while the snapshot waits for its commit. -/
@[ext]
structure RecorderReferenceSnapshot (C : ReferenceContract) where
  product : Raw C.productBytes
  dataset : UInt8
  presence : RecorderReferencePresence := .missing
  acquiredMonotonicNs : UInt64 := 0
  acquiredRealtimeNs : UInt64 := 0
  visibleFromCutGeneration : UInt64 := 0
  visibleFromMonotonicNs : UInt64 := 0
  producer : Raw C.headerBytes
  rowBytes : Bytes := []
  deriving DecidableEq

namespace RecorderReferenceSnapshot

/-- `reference_detail::valid`. -/
def valid (x : RecorderReferenceSnapshot C) : Bool :=
  if !C.validReferenceProductIdentity x.product || C.referenceRecordBytes x.dataset == 0 ||
      !x.presence.named || x.acquiredMonotonicNs == 0 || x.acquiredRealtimeNs == 0 ||
      (x.visibleFromCutGeneration == 0) != (x.visibleFromMonotonicNs == 0) ||
      (x.visibleFromMonotonicNs != 0 && x.visibleFromMonotonicNs < x.acquiredMonotonicNs) then false
  else if x.presence ≠ .present then x.rowBytes.isEmpty
  else
    C.validCurrentReferenceHeader x.producer &&
      C.exchangeRaw (C.snapshotProduct x.producer) == C.exchangeRaw x.product &&
      C.marketRaw (C.snapshotProduct x.producer) == C.marketRaw x.product &&
      C.snapshotDataset x.producer == x.dataset &&
      x.rowBytes.length == C.snapshotTotalRows x.producer * C.snapshotRowBytes x.producer

/-- The members that are written before the rows, in order. The number of row bytes is stored in 32
bits. -/
def members (x : RecorderReferenceSnapshot C) : List Bytes :=
  [x.product.bytes, toLE 1 x.dataset.toNat, toLE 1 x.presence.code, toLE 2 0,
    toLE 8 x.acquiredMonotonicNs.toNat, toLE 8 x.acquiredRealtimeNs.toNat,
    toLE 8 x.visibleFromCutGeneration.toNat, toLE 8 x.visibleFromMonotonicNs.toNat,
    x.producer.bytes, toLE 4 x.rowBytes.length]

def toBytes (x : RecorderReferenceSnapshot C) : Bytes := x.members.flatten ++ x.rowBytes

theorem length_members (x : RecorderReferenceSnapshot C) :
    x.members.flatten.length = C.productBytes + C.headerBytes + 40 := by
  simp only [members, List.flatten_cons, List.flatten_nil, List.length_append, length_toLE,
    x.product.length_bytes, x.producer.length_bytes, List.length_nil]
  omega

theorem length_toBytes (x : RecorderReferenceSnapshot C) :
    x.toBytes.length = C.productBytes + C.headerBytes + 40 + x.rowBytes.length := by
  rw [toBytes, List.length_append, length_members]

/-- What a valid snapshot has passed before its rows are looked at. -/
theorem of_valid {x : RecorderReferenceSnapshot C} (h : x.valid = true) :
    C.validReferenceProductIdentity x.product = true ∧ x.presence.named = true ∧
      (x.visibleFromMonotonicNs ≠ 0 → x.acquiredMonotonicNs ≤ x.visibleFromMonotonicNs) := by
  unfold valid at h
  split at h
  · cases h
  · rename_i htests
    simp only [Bool.or_eq_true, not_or, Bool.not_eq_true', Bool.not_eq_false] at htests
    refine ⟨htests.1.1.1.1.1.1, htests.1.1.1.1.2, fun hvisible => ?_⟩
    simpa [hvisible] using htests.2

end RecorderReferenceSnapshot

/-! ## Writing -/

/-- `kRecorderReferenceMagic`. -/
def kRecorderReferenceMagic : ℕ := 0x46524348

/-- `kRecorderReferenceMaximumBytes`. -/
def kRecorderReferenceMaximumBytes : ℕ := 128 * 1024 * 1024

/-- `kRecorderReferenceMaximumSnapshots`. -/
def kRecorderReferenceMaximumSnapshots : ℕ := 65536

/-- `reference_detail::append` for a chain of members: they are added until one does not fit. -/
def appendMembers (maximum : ℕ) : List Bytes → Bytes → Bool × Bytes
  | [], output => (true, output)
  | value :: values, output =>
    if output.length > maximum ∨ value.length > maximum - output.length then (false, output)
    else appendMembers maximum values (output ++ value)

/-- The loop of `writeRecorderReferences`. -/
def writeSnapshots (maximum : ℕ) :
    List (RecorderReferenceSnapshot C) → Bytes → Status × Bytes × String
  | [], output => (.ok, output, "")
  | x :: xs, output =>
    if !x.valid then (.corruptData, output, "invalid Recorder reference snapshot")
    else
      match appendMembers maximum x.members output with
      | (false, output) => (.outOfRange, output, "")
      | (true, output) =>
        if x.rowBytes.length % 2 ^ 32 > maximum - output.length then (.outOfRange, output, "")
        else writeSnapshots maximum xs (output ++ x.rowBytes)

/-- `writeRecorderReferences`: the status, the output, and the error. -/
def writeRecorderReferences (snapshots : List (RecorderReferenceSnapshot C)) (maximum : ℕ) :
    Status × Bytes × String :=
  if maximum > kRecorderReferenceMaximumBytes ∨
      snapshots.length > kRecorderReferenceMaximumSnapshots then (.outOfRange, [], "")
  else
    match appendMembers maximum [toLE 4 kRecorderReferenceMagic, toLE 4 snapshots.length] [] with
    | (false, output) => (.outOfRange, output, "")
    | (true, output) => writeSnapshots maximum snapshots output

def encodeReferences (snapshots : List (RecorderReferenceSnapshot C)) : Bytes :=
  toLE 4 kRecorderReferenceMagic ++ (toLE 4 snapshots.length ++
    written RecorderReferenceSnapshot.toBytes snapshots)

theorem length_encodeReferences (snapshots : List (RecorderReferenceSnapshot C)) :
    (encodeReferences snapshots).length =
      8 + (written RecorderReferenceSnapshot.toBytes snapshots).length := by
  simp only [encodeReferences, List.length_append, length_toLE]
  omega

variable {maximum : ℕ}

theorem appendMembers_of_fits {values : List Bytes} {output : Bytes}
    (h : output.length + values.flatten.length ≤ maximum) :
    appendMembers maximum values output = (true, output ++ values.flatten) := by
  induction values generalizing output with
  | nil => simp [appendMembers]
  | cons value values ih =>
    simp only [List.flatten_cons, List.length_append] at h
    rw [appendMembers, if_neg (by omega), ih (by rw [List.length_append]; omega),
      List.flatten_cons, List.append_assoc]

variable {snapshots : List (RecorderReferenceSnapshot C)}

/-- Snapshots that fit are written if they are valid, and refused as invalid otherwise. -/
theorem writeSnapshots_of_fits {output : Bytes}
    (hfits : output.length + (written RecorderReferenceSnapshot.toBytes snapshots).length ≤ maximum) :
    ((∀ x ∈ snapshots, x.valid = true) ∧ writeSnapshots maximum snapshots output =
        (.ok, output ++ written RecorderReferenceSnapshot.toBytes snapshots, "")) ∨
      ((∃ x ∈ snapshots, x.valid = false) ∧
        (writeSnapshots maximum snapshots output).1 = .corruptData) := by
  induction snapshots generalizing output with
  | nil => simp [writeSnapshots, written]
  | cons x xs ih =>
    rw [writeSnapshots]
    cases hvalid : x.valid with
    | false => exact .inr ⟨⟨x, List.mem_cons_self, hvalid⟩, rfl⟩
    | true =>
      simp only [written_cons, RecorderReferenceSnapshot.toBytes, List.length_append] at hfits
      have hmembers : appendMembers maximum x.members output = (true, output ++ x.members.flatten) :=
        appendMembers_of_fits (by omega)
      have hrows : x.rowBytes.length % 2 ^ 32 ≤ maximum - (output ++ x.members.flatten).length := by
        have hmod : x.rowBytes.length % 2 ^ 32 ≤ x.rowBytes.length := Nat.mod_le _ _
        rw [List.length_append]
        omega
      have hrest : (output ++ x.members.flatten ++ x.rowBytes).length +
          (written RecorderReferenceSnapshot.toBytes xs).length ≤ maximum := by
        simp only [List.length_append]
        omega
      rw [Bool.not_true, if_neg Bool.false_ne_true, hmembers]
      dsimp only
      rw [if_neg (not_lt.mpr hrows)]
      rcases ih hrest with ⟨hall, hwrite⟩ | ⟨⟨y, hy, hyvalid⟩, hstatus⟩
      · refine .inl ⟨fun y hy => ?_, ?_⟩
        · rcases List.mem_cons.mp hy with rfl | hy
          · exact hvalid
          · exact hall y hy
        · rw [hwrite, written_cons, RecorderReferenceSnapshot.toBytes]
          simp only [List.append_assoc]
      · exact .inr ⟨⟨y, List.mem_cons_of_mem _ hy, hyvalid⟩, hstatus⟩

/-- A history within the limits is written if it is valid, and refused as invalid otherwise. -/
theorem writeRecorderReferences_cases (hmaximum : maximum ≤ kRecorderReferenceMaximumBytes)
    (hcount : snapshots.length ≤ kRecorderReferenceMaximumSnapshots)
    (hfits : (encodeReferences snapshots).length ≤ maximum) :
    ((∀ x ∈ snapshots, x.valid = true) ∧
        writeRecorderReferences snapshots maximum = (.ok, encodeReferences snapshots, "")) ∨
      ((∃ x ∈ snapshots, x.valid = false) ∧
        (writeRecorderReferences snapshots maximum).1 = .corruptData) := by
  rw [length_encodeReferences] at hfits
  have hheader : appendMembers maximum
      [toLE 4 kRecorderReferenceMagic, toLE 4 snapshots.length] [] =
      (true, toLE 4 kRecorderReferenceMagic ++ toLE 4 snapshots.length) := by
    have h8 : ([] : Bytes).length +
        [toLE 4 kRecorderReferenceMagic, toLE 4 snapshots.length].flatten.length ≤ maximum := by
      simp only [List.flatten_cons, List.flatten_nil, List.length_append, length_toLE,
        List.length_nil]
      omega
    rw [appendMembers_of_fits h8, List.nil_append, List.flatten_cons, List.flatten_cons,
      List.flatten_nil, List.append_nil]
  have hfitsLoop : (toLE 4 kRecorderReferenceMagic ++ toLE 4 snapshots.length).length +
      (written RecorderReferenceSnapshot.toBytes snapshots).length ≤ maximum := by
    simp only [List.length_append, length_toLE]
    omega
  have hlimits : ¬(maximum > kRecorderReferenceMaximumBytes ∨
      snapshots.length > kRecorderReferenceMaximumSnapshots) :=
    not_or.mpr ⟨not_lt.mpr hmaximum, not_lt.mpr hcount⟩
  rw [writeRecorderReferences, if_neg hlimits, hheader]
  dsimp only
  rw [encodeReferences, ← List.append_assoc]
  exact writeSnapshots_of_fits hfitsLoop

theorem writeRecorderReferences_of_valid (hmaximum : maximum ≤ kRecorderReferenceMaximumBytes)
    (hcount : snapshots.length ≤ kRecorderReferenceMaximumSnapshots)
    (hvalid : ∀ x ∈ snapshots, x.valid = true)
    (hfits : (encodeReferences snapshots).length ≤ maximum) :
    writeRecorderReferences snapshots maximum = (.ok, encodeReferences snapshots, "") := by
  rcases writeRecorderReferences_cases hmaximum hcount hfits with ⟨-, h⟩ | ⟨⟨x, hx, hinvalid⟩, -⟩
  · exact h
  · rw [hvalid x hx] at hinvalid
    cases hinvalid

/-! ## Reading -/

/-- The members of one snapshot, `none` if they are cut short or the reserved member is set. -/
def readMembers (C : ReferenceContract) (b : Bytes) :
    Option (RecorderReferenceSnapshot C × Bytes) := do
  let (product, b) ← take C.productBytes b
  let (dataset, b) ← takeUInt8 b
  let (presence, b) ← takeLE 1 b
  let (_, b) ← (takeLE 2 b).filter fun (reserved, _) => reserved = 0
  let (acquiredMonotonicNs, b) ← takeUInt64 b
  let (acquiredRealtimeNs, b) ← takeUInt64 b
  let (visibleFromCutGeneration, b) ← takeUInt64 b
  let (visibleFromMonotonicNs, b) ← takeUInt64 b
  let (producer, b) ← take C.headerBytes b
  let (size, b) ← takeLE 4 b
  let (rowBytes, b) ← take size b
  some ({
    product := Raw.ofBytes _ product
    dataset
    presence := .ofCode presence
    acquiredMonotonicNs
    acquiredRealtimeNs
    visibleFromCutGeneration
    visibleFromMonotonicNs
    producer := Raw.ofBytes _ producer
    rowBytes }, b)

/-- One turn of the loop of `readRecorderReferences`. -/
def readSnapshot (C : ReferenceContract) (b : Bytes) :
    Except (Status × String) (RecorderReferenceSnapshot C × Bytes) :=
  match readMembers C b with
  | none => .error (.corruptData, "truncated Recorder reference snapshot")
  | some (x, rest) =>
    if !x.valid then .error (.corruptData, "invalid Recorder reference identity or payload")
    else .ok (x, rest)

/-- The magic number and the number of snapshots, with what follows them. -/
def readHeader (b : Bytes) : Option (ℕ × ℕ × Bytes) := do
  let (magic, b) ← takeLE 4 b
  let (count, b) ← takeLE 4 b
  some (magic, count, b)

/-- `readRecorderReferences`: the snapshots, or the status and the error. -/
def readRecorderReferences (C : ReferenceContract) (bytes : Bytes) :
    Except (Status × String) (List (RecorderReferenceSnapshot C)) :=
  if bytes = [] then .ok []
  else if bytes.length > kRecorderReferenceMaximumBytes then .error (.outOfRange, "")
  else
    match readHeader bytes with
    | none => .error (.corruptData, "Recorder reference header rejected")
    | some (magic, count, b) =>
      if magic ≠ kRecorderReferenceMagic ∨ count > kRecorderReferenceMaximumSnapshots then
        .error (.corruptData, "Recorder reference header rejected")
      else
        match many (readSnapshot C) count b with
        | .error e => .error e
        | .ok (snapshots, rest) =>
          if rest ≠ [] then .error (.corruptData, "trailing Recorder reference data")
          else .ok snapshots

theorem readSnapshot_append {x : RecorderReferenceSnapshot C} (hvalid : x.valid = true)
    (hrows : x.rowBytes.length < 2 ^ 32) (rest : Bytes) :
    readSnapshot C (x.toBytes ++ rest) = .ok (x, rest) := by
  have hnamed := (RecorderReferenceSnapshot.of_valid hvalid).2.1
  have hmembers : readMembers C (x.toBytes ++ rest) = some (x, rest) := by
    simp only [readMembers, RecorderReferenceSnapshot.toBytes, RecorderReferenceSnapshot.members,
      List.flatten_cons, List.flatten_nil, List.append_assoc, List.nil_append,
      take_append x.product.length_bytes, take_append x.producer.length_bytes, takeUInt8_append,
      takeUInt64_append, takeLE_append (RecorderReferencePresence.code_lt hnamed),
      takeLE_append (show 0 < 256 ^ 2 by decide), takeLE_append (n := 4) hrows, take_append rfl,
      Option.bind_eq_bind, Option.bind_some, Option.filter_some, decide_true, if_true,
      Raw.ofBytes_bytes, RecorderReferencePresence.ofCode_code hnamed]
  rw [readSnapshot, hmembers]
  simp [hvalid]

/-- What was read as a snapshot is the bytes of one that is valid. -/
theorem of_readSnapshot {b rest : Bytes} {x : RecorderReferenceSnapshot C}
    (h : readSnapshot C b = .ok (x, rest)) : b = x.toBytes ++ rest ∧ x.valid = true := by
  unfold readSnapshot at h
  split at h
  · cases h
  rename_i y after hmembers
  split at h
  · cases h
  rename_i hvalid
  cases h
  refine ⟨?_, by simpa using hvalid⟩
  -- Every member that was taken is the next part of the bytes.
  simp only [readMembers, Option.bind_eq_bind, Option.bind_eq_some_iff, Prod.exists,
    Option.filter_eq_some_iff, decide_eq_true_eq] at hmembers
  obtain ⟨product, _, hproduct, dataset, _, hdataset, presence, _, hpresence, reserved, _,
    ⟨hreserved, rfl⟩, monotonic, _, hmonotonic, realtime, _, hrealtime, generation, _, hgeneration,
    visible, _, hvisible, producer, _, hproducer, size, _, hsize, rows, _, hrows, heq⟩ := hmembers
  cases heq
  obtain ⟨rfl, hproductLength⟩ := of_take hproduct
  obtain rfl := of_takeUInt8 hdataset
  obtain ⟨rfl, -⟩ := of_takeLE hpresence
  obtain ⟨rfl, -⟩ := of_takeLE hreserved
  obtain rfl := of_takeUInt64 hmonotonic
  obtain rfl := of_takeUInt64 hrealtime
  obtain rfl := of_takeUInt64 hgeneration
  obtain rfl := of_takeUInt64 hvisible
  obtain ⟨rfl, hproducerLength⟩ := of_take hproducer
  obtain ⟨rfl, -⟩ := of_takeLE hsize
  obtain ⟨rfl, rfl⟩ := of_take hrows
  simp only [RecorderReferenceSnapshot.toBytes, RecorderReferenceSnapshot.members,
    List.flatten_cons, List.flatten_nil, List.append_assoc, List.nil_append,
    Raw.bytes_ofBytes hproductLength, Raw.bytes_ofBytes hproducerLength,
    RecorderReferencePresence.code_ofCode]

/-- A history that is valid and within the limits is read back from its payload. -/
theorem readRecorderReferences_encode
    (hcount : snapshots.length ≤ kRecorderReferenceMaximumSnapshots)
    (hvalid : ∀ x ∈ snapshots, x.valid = true)
    (hbytes : (encodeReferences snapshots).length ≤ kRecorderReferenceMaximumBytes) :
    readRecorderReferences C (encodeReferences snapshots) = .ok snapshots := by
  have hne : encodeReferences snapshots ≠ [] := by
    intro h
    have hlen := length_encodeReferences snapshots
    rw [h, List.length_nil] at hlen
    omega
  have hheader : readHeader (encodeReferences snapshots) = some
      (kRecorderReferenceMagic, snapshots.length,
        written RecorderReferenceSnapshot.toBytes snapshots) := by
    have hsmall : snapshots.length < 256 ^ 4 := hcount.trans_lt (by decide)
    simp only [readHeader, encodeReferences,
      takeLE_append (show kRecorderReferenceMagic < 256 ^ 4 by decide), takeLE_append hsmall,
      Option.bind_eq_bind, Option.bind_some]
  have hrows : ∀ x ∈ snapshots, x.rowBytes.length < 2 ^ 32 := by
    intro x hx
    have hx' : x.rowBytes.length ≤ (encodeReferences snapshots).length := by
      have hle : x.toBytes.length ≤ (written RecorderReferenceSnapshot.toBytes snapshots).length :=
        (List.sublist_flatten_of_mem (List.mem_map_of_mem hx)).length_le
      rw [RecorderReferenceSnapshot.length_toBytes] at hle
      rw [length_encodeReferences]
      omega
    exact (hx'.trans hbytes).trans_lt (by decide)
  have hmany := many_append (fun x hx => readSnapshot_append (hvalid x hx) (hrows x hx)) []
  rw [List.append_nil] at hmany
  rw [readRecorderReferences, if_neg hne, if_neg (not_lt.mpr hbytes), hheader]
  dsimp only
  rw [if_neg (not_or.mpr ⟨fun h => h rfl, not_lt.mpr hcount⟩), hmany]
  rfl

/-- What the reader accepts is empty, or the payload of the history that it returns. -/
theorem of_readRecorderReferences {b : Bytes} (h : readRecorderReferences C b = .ok snapshots) :
    (b = [] ∧ snapshots = []) ∨
      (b = encodeReferences snapshots ∧ b.length ≤ kRecorderReferenceMaximumBytes ∧
        snapshots.length ≤ kRecorderReferenceMaximumSnapshots ∧
        ∀ x ∈ snapshots, x.valid = true) := by
  unfold readRecorderReferences at h
  split at h
  · rename_i hempty
    cases h
    exact .inl ⟨hempty, rfl⟩
  split at h
  · cases h
  rename_i hbytes
  split at h
  · cases h
  rename_i magic count body hheader
  split at h
  · cases h
  rename_i hlimits
  split at h
  · cases h
  rename_i xs rest hmany
  split at h
  · cases h
  rename_i hrest
  cases h
  simp only [not_or, ne_eq, not_not, not_lt] at hlimits hrest
  subst hrest
  simp only [readHeader, Option.bind_eq_bind, Option.bind_eq_some_iff, Prod.exists, Option.some.injEq,
    Prod.mk.injEq] at hheader
  obtain ⟨_, _, hmagic, _, _, hcount, rfl, rfl, rfl⟩ := hheader
  obtain ⟨rfl, -⟩ := of_takeLE hmagic
  obtain ⟨rfl, -⟩ := of_takeLE hcount
  obtain ⟨rfl, rfl, hvalid⟩ := of_many (fun h => of_readSnapshot h) hmany
  obtain ⟨rfl, hle⟩ := hlimits
  refine .inr ⟨?_, not_lt.mp hbytes, hle, hvalid⟩
  rw [encodeReferences, List.append_nil]

/-- A refusal has another status than `Ok`. -/
theorem readRecorderReferences_error_ne {b : Bytes} {status : Status} {error : String}
    (h : readRecorderReferences C b = .error (status, error)) : status ≠ .ok := by
  have hsnapshot : ∀ {b : Bytes} {e : Status × String}, readSnapshot C b = .error e → e.1 ≠ .ok := by
    intro b e h
    unfold readSnapshot at h
    split at h
    · cases h
      decide
    split at h
    · cases h
      decide
    · cases h
  unfold readRecorderReferences at h
  split at h
  · cases h
  split at h
  · cases h
    decide
  split at h
  · cases h
    decide
  split at h
  · cases h
    decide
  split at h
  · rename_i hmany
    cases h
    exact many_error hsnapshot hmany
  split at h
  · cases h
    decide
  · cases h

end HftRecorder.Corpus
