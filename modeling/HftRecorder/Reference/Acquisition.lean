import HftRecorder.Lib.Lists
import HftRecorder.Reference.Visibility

/-!
# Acquiring references within a budget

The loop of `RecorderReferenceCapture::start`. Each round takes the history of the latest cut, asks
the producer for every dataset of every product, and appends a snapshot where something changed. A
snapshot that would leave no room for one more fence of every pair is replaced by a fence, a
snapshot with presence `CapacityExceeded` and no rows, unless the pair has one already.

`FenceRoom` is the invariant behind the budget: the bytes and the number of snapshots exceed what is left
beside the reserve by at most one fence for each pair that is fenced. It is kept by every pair, by
every round, and by binding the history to a cut, so that no round runs out of room. The one place
where the bytes are not counted in full is a cut with an empty payload, from which a round counts up
from zero although the payload's own header takes eight bytes; where snapshots take up their whole
allowance this is enough to reach the end of the budget (`acquisition_runs_out`).
-/

namespace HftRecorder.Corpus

open ByteLayout

variable {C : ReferenceContract}

/-! ## The setup -/

/-- The datasets that are acquired, in order. -/
def referenceDatasets : List ReferenceDatasetKind :=
  [.instruments, .ticker24h, .deliveryBasis, .centralBankRate, .centralBankDecision]

/-- What the acquisition runs with. -/
structure ReferenceSetup where
  identities : List (UInt8 × UInt8)
  maximumBytes : ℕ
  nodup : identities.Nodup
  count_le : identities.length ≤ 64
  minimum_le : 1024 * 1024 ≤ maximumBytes
  le_maximum : maximumBytes ≤ kRecorderReferenceMaximumBytes

/-- A dataset of a product. -/
structure ReferencePair where
  exchange : UInt8
  market : UInt8
  dataset : ReferenceDatasetKind
  deriving DecidableEq

/-- The datasets of all products, in the order of the loop. -/
def ReferenceSetup.pairs (g : ReferenceSetup) : List ReferencePair :=
  g.identities.flatMap fun (exchange, market) =>
    referenceDatasets.map fun dataset => ⟨exchange, market, dataset⟩

theorem ReferenceSetup.length_pairs (g : ReferenceSetup) :
    g.pairs.length = g.identities.length * referenceDatasets.length := by
  simp [pairs, List.length_flatMap]

theorem ReferenceSetup.nodup_pairs (g : ReferenceSetup) : g.pairs.Nodup := by
  refine List.nodup_flatMap.mpr ⟨fun identity _ => ?_, ?_⟩
  · refine List.Nodup.map ?_ (by decide)
    intro a b h
    exact congrArg ReferencePair.dataset h
  · refine g.nodup.imp fun {a b} hne => ?_
    simp only [Function.onFun, List.disjoint_left, List.mem_map]
    rintro pair ⟨d, -, rfl⟩ ⟨e, -, heq⟩
    refine hne (Prod.ext ?_ ?_)
    · exact (congrArg ReferencePair.exchange heq).symm
    · exact (congrArg ReferencePair.market heq).symm

/-! ## One pair -/

/-- `hft_parser::reference::CurrentReferenceStatus`. -/
inductive CurrentReferenceStatus
  | ready
  | missing
  | generationChanged
  | protocolRejected
  | capacityExceeded
  | ioFailure
  | other
  deriving DecidableEq, Repr

/-- `presenceFor`. -/
def presenceFor : CurrentReferenceStatus → RecorderReferencePresence
  | .ready => .present
  | .missing => .missing
  | .generationChanged => .generationChanged
  | .protocolRejected => .protocolRejected
  | .capacityExceeded => .capacityExceeded
  | .ioFailure => .ioFailure
  | .other => .protocolRejected

/-- What a client's `readCold` leaves, and the two clocks after it. -/
structure Acquired (C : ReferenceContract) where
  status : CurrentReferenceStatus
  header : Raw C.headerBytes
  rows : Bytes
  monotonicNs : UInt64
  realtimeNs : UInt64

/-- How the acquisition ends before it is stopped. -/
inductive AcquisitionExit
  /-- A clock cannot be read. -/
  | clock
  /-- The history of the latest cut cannot be read. -/
  | historyRejected
  /-- There is no room for a snapshot. -/
  | outOfRange
  /-- The history cannot be written. -/
  | unwritten (status : Status)
  /-- The writer's queue refuses the payload. -/
  | unappended (status : Status)
  deriving DecidableEq, Repr

/-- The bytes that are counted for a snapshot beside its rows. -/
def referenceOverhead (C : ReferenceContract) : ℕ := C.headerBytes + 64

/-- The bytes that are kept free for the fences. -/
def referenceReserve (C : ReferenceContract) (g : ReferenceSetup) : ℕ :=
  g.identities.length * referenceDatasets.length * referenceOverhead C

def ReferencePair.has (C : ReferenceContract) (pair : ReferencePair)
    (x : RecorderReferenceSnapshot C) : Bool :=
  C.exchangeRaw x.product == pair.exchange && C.marketRaw x.product == pair.market &&
    x.dataset == C.datasetRaw pair.dataset

def lastOf (pair : ReferencePair) (history : List (RecorderReferenceSnapshot C)) :
    Option (RecorderReferenceSnapshot C) := history.reverse.find? (pair.has C)

/-- The last snapshot of the pair is a fence. -/
def fenced (history : List (RecorderReferenceSnapshot C)) (pair : ReferencePair) : Bool :=
  (lastOf pair history).any fun last => last.presence == .capacityExceeded

/-- The last snapshot of the pair says what the new one would say. -/
def unchanged (last : Option (RecorderReferenceSnapshot C)) (x : RecorderReferenceSnapshot C) : Bool :=
  last.any fun last => last.presence == x.presence &&
    (x.presence != .present ||
      (C.producerEpoch last.producer == C.producerEpoch x.producer &&
        C.generation last.producer == C.generation x.producer))

/-- The end of the loop's body: the snapshot is added to the history and the bytes are counted. -/
def pushSnapshot (g : ReferenceSetup) (x : RecorderReferenceSnapshot C)
    (history : List (RecorderReferenceSnapshot C)) (byteBudget : ℕ) :
    Except AcquisitionExit (List (RecorderReferenceSnapshot C) × ℕ) :=
  if byteBudget + referenceOverhead C + x.rowBytes.length > g.maximumBytes ∨
      history.length ≥ kRecorderReferenceMaximumSnapshots then .error .outOfRange
  else .ok (history ++ [x], byteBudget + (referenceOverhead C + x.rowBytes.length))

/-- The snapshot of what was acquired for a pair, before its rows are copied. -/
def acquiredSnapshot (pair : ReferencePair) (a : Acquired C) : RecorderReferenceSnapshot C where
  product := C.productFor pair.exchange pair.market
  dataset := C.datasetRaw pair.dataset
  presence := presenceFor a.status
  acquiredMonotonicNs := a.monotonicNs
  acquiredRealtimeNs := a.realtimeNs
  producer := if presenceFor a.status = .present then a.header else C.defaultHeader

/-- The rows that are copied, those of a dataset that is present. -/
def acquiredRows (a : Acquired C) : Bytes := if presenceFor a.status = .present then a.rows else []

/-- There is no room for the snapshot beside the reserve. -/
def roomUsedUp (g : ReferenceSetup) (a : Acquired C) (history : List (RecorderReferenceSnapshot C))
    (byteBudget : ℕ) : Bool :=
  history.length + g.identities.length * referenceDatasets.length ≥
      kRecorderReferenceMaximumSnapshots ||
    byteBudget + referenceOverhead C + a.rows.length + referenceReserve C g > g.maximumBytes

/-- The body of the loop over the pairs: the history and the bytes after it. -/
def acquirePair (g : ReferenceSetup) (pair : ReferencePair) (a : Acquired C)
    (history : List (RecorderReferenceSnapshot C)) (byteBudget : ℕ) :
    Except AcquisitionExit (List (RecorderReferenceSnapshot C) × ℕ) :=
  if a.monotonicNs = 0 ∨ a.realtimeNs = 0 then .error .clock
  else if unchanged (lastOf pair history) (acquiredSnapshot pair a) then .ok (history, byteBudget)
  else if roomUsedUp g a history byteBudget then
    if fenced history pair then .ok (history, byteBudget)
    else
      pushSnapshot g { acquiredSnapshot pair a with
        presence := .capacityExceeded
        producer := C.defaultHeader } history byteBudget
  else
    pushSnapshot g { acquiredSnapshot pair a with rowBytes := acquiredRows a } history byteBudget

/-! ## Rounds -/

/-- What a round meets: the latest cut, for each pair what is acquired or that the capture was
stopped, and what the writer's queue returns. -/
structure RoundInput (C : ReferenceContract) where
  cut : Option (ℕ × Bytes)
  acquired : ReferencePair → Option (Acquired C)
  appended : Status

/-- The loop over the pairs. A pair is left out when the capture is being stopped. -/
def acquirePairs (g : ReferenceSetup) (acquired : ReferencePair → Option (Acquired C)) :
    List ReferencePair → List (RecorderReferenceSnapshot C) → ℕ →
      Except AcquisitionExit (List (RecorderReferenceSnapshot C) × ℕ)
  | [], history, byteBudget => .ok (history, byteBudget)
  | pair :: pairs, history, byteBudget =>
    match acquired pair with
    | none => acquirePairs g acquired pairs history byteBudget
    | some a =>
      match acquirePair g pair a history byteBudget with
      | .error exit => .error exit
      | .ok (history, byteBudget) => acquirePairs g acquired pairs history byteBudget

/-- The cut that a later round waits for. -/
structure Awaiting where
  generation : ℕ := 0
  count : ℕ := 0
  deriving DecidableEq

/-- One round: what it waits for after it, and the payload that it appends, if any. -/
def acquireRound (C : ReferenceContract) (g : ReferenceSetup) (awaiting : Awaiting)
    (input : RoundInput C) : Except AcquisitionExit (Awaiting × Option Bytes) :=
  let cutGeneration := (input.cut.map Prod.fst).getD 0
  let cutPayload := (input.cut.map Prod.snd).getD []
  if awaiting.generation ≠ 0 ∧ (input.cut = none ∨ cutGeneration ≤ awaiting.generation) then
    .ok (awaiting, none)
  else
    -- Without a cut the history is empty, as it is for an empty payload.
    match readRecorderReferences C cutPayload with
    | .error _ => .error .historyRejected
    | .ok history =>
      if awaiting.count ≠ 0 ∧ history.length < awaiting.count then .ok (awaiting, none)
      else
        match acquirePairs g input.acquired g.pairs history
            (if input.cut = none then 20 else cutPayload.length) with
        | .error exit => .error exit
        | .ok (next, _) =>
          if next.length = history.length then .ok ({}, none)
          else
            match writeRecorderReferences next g.maximumBytes with
            | (.ok, payload, _) =>
              if input.appended = .ok then
                .ok ({ generation := cutGeneration, count := next.length }, some payload)
              else .error (.unappended input.appended)
            | (status, _, _) => .error (.unwritten status)

/-- The rounds of a capture: the payloads that it appends, and how it ends unless it is stopped. -/
def acquireRounds (C : ReferenceContract) (g : ReferenceSetup) :
    Awaiting → List (RoundInput C) → List Bytes × Option AcquisitionExit
  | _, [] => ([], none)
  | awaiting, input :: inputs =>
    match acquireRound C g awaiting input with
    | .error exit => ([], some exit)
    | .ok (awaiting, payload) =>
      let rest := acquireRounds C g awaiting inputs
      (payload.toList ++ rest.1, rest.2)

/-- The payload of a cut is empty or was appended before and bound to the cut. -/
def FromAppended (C : ReferenceContract) (appended : List Bytes) : Option (ℕ × Bytes) → Prop
  | none => True
  | some (_, payload) => payload = [] ∨ ∃ given ∈ appended, ∃ (previous : Bytes)
      (generation committedMonotonicNs : UInt64), bindRecorderReferenceVisibility C given previous
        generation.toNat committedMonotonicNs.toNat = (.ok, payload)

/-- Every round of a capture starts from a cut with a payload of an earlier round. -/
def Served (C : ReferenceContract) (g : ReferenceSetup) :
    Awaiting → List Bytes → List (RoundInput C) → Prop
  | _, _, [] => True
  | awaiting, appended, input :: inputs =>
    FromAppended C appended input.cut ∧
      ∀ next payload, acquireRound C g awaiting input = .ok (next, payload) →
        Served C g next (appended ++ payload.toList) inputs

/-! ## The room for fences -/

def fences (g : ReferenceSetup) (history : List (RecorderReferenceSnapshot C)) : ℕ :=
  g.pairs.countP (fenced history)

/-- The bytes and the snapshots of a history leave the reserve free, but for one fence of each pair
that is fenced. -/
structure FenceRoom (g : ReferenceSetup) (history : List (RecorderReferenceSnapshot C)) (bytes : ℕ) :
    Prop where
  bytes_le : bytes + referenceReserve C g ≤ g.maximumBytes + fences g history * referenceOverhead C
  count_le : history.length + g.identities.length * referenceDatasets.length ≤
    kRecorderReferenceMaximumSnapshots + fences g history

variable {history : List (RecorderReferenceSnapshot C)} {g : ReferenceSetup} {bytes : ℕ}

theorem FenceRoom.mono {fewer : ℕ} (h : FenceRoom g history bytes) (hle : fewer ≤ bytes) :
    FenceRoom g history fewer :=
  ⟨(Nat.add_le_add_right hle _).trans h.bytes_le, h.count_le⟩

theorem lastOf_append (pair : ReferencePair) (history : List (RecorderReferenceSnapshot C))
    (x : RecorderReferenceSnapshot C) :
    lastOf pair (history ++ [x]) = if pair.has C x then some x else lastOf pair history := by
  rw [lastOf, List.reverse_append, List.reverse_singleton, List.singleton_append, List.find?_cons]
  cases pair.has C x <;> rfl

variable {x : RecorderReferenceSnapshot C} {pair : ReferencePair}

theorem has_iff (hC : C.Lawful) {other : ReferencePair}
    (hproduct : x.product = C.productFor pair.exchange pair.market)
    (hdataset : x.dataset = C.datasetRaw pair.dataset) : other.has C x = true ↔ other = pair := by
  rw [ReferencePair.has, hproduct, hdataset, hC.exchangeRaw_productFor, hC.marketRaw_productFor]
  simp only [Bool.and_eq_true, beq_iff_eq, hC.datasetRaw_injective.eq_iff]
  constructor
  · rintro ⟨⟨h1, h2⟩, h3⟩
    cases pair
    cases other
    cases h1
    cases h2
    cases h3
    rfl
  · rintro rfl
    exact ⟨⟨rfl, rfl⟩, rfl⟩

theorem fences_append (hC : C.Lawful) (hpair : pair ∈ g.pairs)
    (hproduct : x.product = C.productFor pair.exchange pair.market)
    (hdataset : x.dataset = C.datasetRaw pair.dataset) (hpresence : x.presence = .capacityExceeded)
    (hfenced : fenced history pair = false) : fences g (history ++ [x]) = fences g history + 1 := by
  refine Lists.countP_eq_succ g.nodup_pairs hpair hfenced ?_ fun other hother => ?_
  · rw [fenced, lastOf_append, if_pos ((has_iff hC hproduct hdataset).mpr rfl), Option.any_some,
      hpresence]
    rfl
  · rw [fenced, lastOf_append, if_neg fun h => hother ((has_iff hC hproduct hdataset).mp h)]
    rfl

theorem fences_lt (hpair : pair ∈ g.pairs) (hfenced : fenced history pair = false) :
    fences g history < g.identities.length * referenceDatasets.length := by
  rw [← g.length_pairs]
  refine lt_of_le_of_ne List.countP_le_length fun h => ?_
  rw [List.countP_eq_length.mp h pair hpair] at hfenced
  cases hfenced

/-- A history that grew: the snapshots that were added, and the bytes that were counted for them. -/
structure Grown (history next : List (RecorderReferenceSnapshot C)) (bytes nextBytes : ℕ)
    (added : List (RecorderReferenceSnapshot C)) : Prop where
  history_eq : next = history ++ added
  bytes_eq : nextBytes =
    bytes + (added.map fun x => referenceOverhead C + x.rowBytes.length).sum

theorem Grown.refl (history : List (RecorderReferenceSnapshot C)) (bytes : ℕ) :
    Grown history history bytes bytes [] := ⟨by simp, by simp⟩

theorem Grown.trans {mid next added more : List (RecorderReferenceSnapshot C)}
    {midBytes nextBytes : ℕ} (h : Grown history mid bytes midBytes added)
    (h' : Grown mid next midBytes nextBytes more) :
    Grown history next bytes nextBytes (added ++ more) where
  history_eq := by rw [h'.history_eq, h.history_eq, List.append_assoc]
  bytes_eq := by rw [h'.bytes_eq, h.bytes_eq, List.map_append, List.sum_append, Nat.add_assoc]

theorem pushSnapshot_of_fits {byteBudget : ℕ}
    (hbytes : byteBudget + referenceOverhead C + x.rowBytes.length ≤ g.maximumBytes)
    (hcount : history.length < kRecorderReferenceMaximumSnapshots) :
    pushSnapshot g x history byteBudget =
      .ok (history ++ [x], byteBudget + (referenceOverhead C + x.rowBytes.length)) :=
  if_neg (not_or.mpr ⟨not_lt.mpr hbytes, not_le.mpr hcount⟩)

theorem pushSnapshot_of_full {byteBudget : ℕ}
    (hbytes : g.maximumBytes < byteBudget + referenceOverhead C + x.rowBytes.length) :
    pushSnapshot g x history byteBudget = .error .outOfRange := if_pos (.inl hbytes)

theorem grown_push (x : RecorderReferenceSnapshot C) (history : List (RecorderReferenceSnapshot C))
    (bytes : ℕ) :
    Grown history (history ++ [x]) bytes (bytes + (referenceOverhead C + x.rowBytes.length)) [x] :=
  ⟨rfl, by simp⟩

/-- One pair does not run out of room, and it keeps the room. -/
theorem FenceRoom.acquirePair (hC : C.Lawful) (hpair : pair ∈ g.pairs) (a : Acquired C)
    (h : FenceRoom g history bytes) :
    Corpus.acquirePair g pair a history bytes = .error .clock ∨
      ∃ next nextBytes added, Corpus.acquirePair g pair a history bytes = .ok (next, nextBytes) ∧
        FenceRoom g next nextBytes ∧ Grown history next bytes nextBytes added := by
  unfold Corpus.acquirePair
  split
  · exact .inl rfl
  split
  · exact .inr ⟨history, bytes, [], rfl, h, .refl history bytes⟩
  split
  · -- The room is used up: the pair is fenced, or gets its fence.
    cases hfenced : fenced history pair with
    | true => exact .inr ⟨history, bytes, [], by simp, h, .refl history bytes⟩
    | false =>
      have hlt := fences_lt hpair hfenced
      have hspace : (fences g history + 1) * referenceOverhead C ≤ referenceReserve C g :=
        Nat.mul_le_mul_right _ hlt
      obtain ⟨hbytes, hcount⟩ := h
      rw [Nat.add_mul, Nat.one_mul] at hspace
      have hempty : (acquiredSnapshot pair a).rowBytes.length = 0 := rfl
      rw [if_neg Bool.false_ne_true, pushSnapshot_of_fits]
      · refine .inr ⟨_, _, _, rfl, ⟨?_, ?_⟩, grown_push ..⟩
        · rw [fences_append hC hpair rfl rfl rfl hfenced, Nat.add_mul, Nat.one_mul, hempty]
          omega
        · rw [fences_append hC hpair rfl rfl rfl hfenced, List.length_append, List.length_singleton]
          omega
      · rw [hempty]
        omega
      · omega
  · -- There is room for the snapshot beside the reserve.
    rename_i hroom
    simp only [roomUsedUp, Bool.or_eq_true, decide_eq_true_eq, not_or, not_le, not_lt, ge_iff_le,
      gt_iff_lt] at hroom
    obtain ⟨hcount, hbytes⟩ := hroom
    have hrows : (acquiredRows a).length ≤ a.rows.length := by
      unfold acquiredRows
      split
      · exact le_rfl
      · exact Nat.zero_le _
    rw [pushSnapshot_of_fits]
    · refine .inr ⟨_, _, _, rfl, ⟨?_, ?_⟩, grown_push ..⟩
      · dsimp only
        omega
      · rw [List.length_append, List.length_singleton]
        omega
    · dsimp only
      omega
    · omega

theorem FenceRoom.acquirePairs (hC : C.Lawful) (acquired : ReferencePair → Option (Acquired C))
    (pairs : List ReferencePair) (hpairs : ∀ pair ∈ pairs, pair ∈ g.pairs)
    (h : FenceRoom g history bytes) :
    Corpus.acquirePairs g acquired pairs history bytes = .error .clock ∨
      ∃ next nextBytes added,
        Corpus.acquirePairs g acquired pairs history bytes = .ok (next, nextBytes) ∧
        FenceRoom g next nextBytes ∧ Grown history next bytes nextBytes added := by
  induction pairs generalizing history bytes with
  | nil => exact .inr ⟨history, bytes, [], rfl, h, .refl history bytes⟩
  | cons pair pairs ih =>
    have hrest : ∀ pair ∈ pairs, pair ∈ g.pairs := fun p hp => hpairs p (List.mem_cons_of_mem _ hp)
    rw [Corpus.acquirePairs]
    cases acquired pair with
    | none => exact ih hrest h
    | some a =>
      rcases h.acquirePair hC (hpairs pair List.mem_cons_self) a with he | ⟨mid, midBytes, added, he,
        hmid, hgrown⟩ <;> simp only [he]
      · exact .inl trivial
      · rcases ih hrest hmid with he' | ⟨next, nextBytes, more, he', hnext, hgrown'⟩
        · exact .inl he'
        · exact .inr ⟨next, nextBytes, added ++ more, he', hnext, hgrown.trans hgrown'⟩

theorem FenceRoom.within (h : FenceRoom g history bytes) :
    bytes ≤ g.maximumBytes ∧ history.length ≤ kRecorderReferenceMaximumSnapshots := by
  have hle : fences g history ≤ g.identities.length * referenceDatasets.length := by
    rw [← g.length_pairs]
    exact List.countP_le_length
  have hspace : fences g history * referenceOverhead C ≤ referenceReserve C g :=
    Nat.mul_le_mul_right _ hle
  obtain ⟨hbytes, hcount⟩ := h
  exact ⟨by omega, by omega⟩

theorem fences_congr {a b : List (RecorderReferenceSnapshot C)} (h : SameObservations a b) :
    fences g a = fences g b := by
  have hfenced : ∀ (l : List (RecorderReferenceSnapshot C)) (pair : ReferencePair),
      fenced (l.map (·.visibleFrom 0 0)) pair = fenced l pair := by
    intro l pair
    have hlast : lastOf pair (l.map (·.visibleFrom 0 0)) =
        (lastOf pair l).map (·.visibleFrom 0 0) := by
      rw [lastOf, lastOf, ← List.map_reverse, List.find?_map]
      rfl
    rw [fenced, fenced, hlast, Option.any_map]
    rfl
  unfold fences
  refine List.countP_congr fun pair _ => ?_
  rw [← hfenced a, h, hfenced b]

/-! ## Rounds keep the room -/

/-- A payload with a history that has room. -/
def HasRoom (C : ReferenceContract) (g : ReferenceSetup) (payload : Bytes) : Prop :=
  ∃ history, readRecorderReferences C payload = .ok history ∧ FenceRoom g history payload.length

theorem HasRoom.bind {given previous payload : Bytes} {generation committedMonotonicNs : UInt64}
    (h : HasRoom C g given)
    (hbind : bindRecorderReferenceVisibility C given previous generation.toNat
      committedMonotonicNs.toNat = (.ok, payload)) : HasRoom C g payload := by
  obtain ⟨history, hread, hbytes, hcount⟩ := h
  rcases bindRecorderReferenceVisibility_cases given previous generation.toNat_lt
    committedMonotonicNs.toNat_lt with ⟨status, hne, he⟩ | ⟨bound, current, prior, next, he, hlength,
      hgiven, hsame, -, hnext, -⟩
  · rw [hbind] at he
    cases he
    exact absurd rfl hne
  · rw [hbind] at he
    cases he
    rw [hread] at hgiven
    cases hgiven
    refine ⟨next, hnext, ?_, ?_⟩
    · rw [hlength, fences_congr hsame]
      exact hbytes
    · rw [hsame.length_eq, fences_congr hsame]
      exact hcount

/-- The snapshots that are added take no more bytes than are counted for them, and the eight bytes of
a payload's header are counted with the first. -/
theorem length_written_le
    (hsize : ∀ x : RecorderReferenceSnapshot C,
      x.toBytes.length ≤ C.headerBytes + 56 + x.rowBytes.length)
    (added : List (RecorderReferenceSnapshot C)) :
    (written RecorderReferenceSnapshot.toBytes added).length + 8 * added.length ≤
      (added.map fun x => referenceOverhead C + x.rowBytes.length).sum := by
  induction added with
  | nil => rfl
  | cons x added ih =>
    have hx := hsize x
    rw [written_cons, List.length_append, List.map_cons, List.sum_cons, List.length_cons,
      referenceOverhead]
    unfold referenceOverhead at ih
    omega

variable {appended : List Bytes}

/-- What a round starts from has room, and at most a payload's header is not counted. -/
theorem HasRoom.roundStart (hfits : 20 + referenceReserve C g ≤ g.maximumBytes)
    (happended : ∀ payload ∈ appended, HasRoom C g payload) {cut : Option (ℕ × Bytes)}
    (hcut : FromAppended C appended cut)
    (hread : readRecorderReferences C ((cut.map Prod.snd).getD []) = .ok history) :
    FenceRoom g history (if cut = none then 20 else ((cut.map Prod.snd).getD []).length) ∧
      (encodeReferences history).length ≤
        (if cut = none then 20 else ((cut.map Prod.snd).getD []).length) + 8 := by
  have hnew : ∀ {bytes}, bytes ≤ 20 →
      FenceRoom g ([] : List (RecorderReferenceSnapshot C)) bytes := by
    intro bytes hbytes
    have hcount := g.count_le
    refine ⟨by omega, ?_⟩
    have hlimit : kRecorderReferenceMaximumSnapshots = 65536 := rfl
    have hdatasets : referenceDatasets.length = 5 := rfl
    rw [hlimit, hdatasets, List.length_nil]
    omega
  have hheader : (encodeReferences ([] : List (RecorderReferenceSnapshot C))).length = 8 := by
    rw [length_encodeReferences]
    rfl
  match cut with
  | none =>
    cases hread
    exact ⟨hnew le_rfl, by rw [hheader]; decide⟩
  | some (generation, payload) =>
    simp only [Option.map_some, Option.getD_some, reduceCtorEq, if_false] at hread ⊢
    rcases of_readRecorderReferences hread with ⟨rfl, rfl⟩ | ⟨hpayload, -, -, -⟩
    · exact ⟨hnew (Nat.zero_le _), hheader.le⟩
    · refine ⟨?_, by rw [← hpayload]; omega⟩
      rcases hcut with rfl | ⟨given, hgiven, previous, _, _, hbind⟩
      · cases hread
        exact hnew (Nat.zero_le _)
      · obtain ⟨bound, hbound, hroom⟩ := (happended given hgiven).bind hbind
        rw [hread] at hbound
        cases hbound
        exact hroom

/-- A round does not run out of room, and the payload that it appends has room again. -/
theorem HasRoom.acquireRound (hC : C.Lawful) (hfits : 20 + referenceReserve C g ≤ g.maximumBytes)
    (hsize : ∀ x : RecorderReferenceSnapshot C,
      x.toBytes.length ≤ C.headerBytes + 56 + x.rowBytes.length)
    (happended : ∀ payload ∈ appended, HasRoom C g payload) (awaiting : Awaiting)
    {input : RoundInput C} (hcut : FromAppended C appended input.cut) :
    (∀ exit, Corpus.acquireRound C g awaiting input = .error exit →
      exit ≠ .outOfRange ∧ exit ≠ .unwritten .outOfRange) ∧
    ∀ next payload, Corpus.acquireRound C g awaiting input = .ok (next, some payload) →
      HasRoom C g payload := by
  unfold Corpus.acquireRound
  dsimp only
  split
  · exact ⟨fun _ h => (nomatch h), fun _ _ h => (nomatch h)⟩
  split
  · refine ⟨fun exit h => ?_, fun _ _ h => (nomatch h)⟩
    cases h
    exact ⟨by decide, by decide⟩
  rename_i history hread
  split
  · exact ⟨fun _ h => (nomatch h), fun _ _ h => (nomatch h)⟩
  obtain ⟨hroom, hbase⟩ := HasRoom.roundStart hfits happended hcut hread
  rcases hroom.acquirePairs hC input.acquired g.pairs (fun _ h => h) with he | ⟨next, nextBytes,
    added, he, hnext, hgrown⟩ <;> rw [he] <;> dsimp only
  · refine ⟨fun exit h => ?_, fun _ _ h => (nomatch h)⟩
    cases h
    exact ⟨by decide, by decide⟩
  split
  · exact ⟨fun _ h => (nomatch h), fun _ _ h => (nomatch h)⟩
  rename_i hgrew
  -- Something was added, so that the header is counted, too.
  have hbytes : (encodeReferences next).length ≤ nextBytes := by
    have hadded : 1 ≤ added.length := by
      rw [hgrown.history_eq, List.length_append] at hgrew
      omega
    have hle := length_written_le hsize added
    rw [length_encodeReferences] at hbase ⊢
    rw [hgrown.history_eq, hgrown.bytes_eq, written_append, List.length_append]
    omega
  have hroomNext := hnext.mono hbytes
  obtain ⟨hlength, hcount⟩ := hroomNext.within
  rcases writeRecorderReferences_cases g.le_maximum hcount hlength with ⟨hvalid, hwrite⟩ | ⟨-, hstatus⟩
  · rw [hwrite]
    dsimp only
    split
    · refine ⟨fun _ h => (nomatch h), fun _ payload h => ?_⟩
      cases h
      exact ⟨next, readRecorderReferences_encode hcount hvalid (hlength.trans g.le_maximum), hroomNext⟩
    · refine ⟨fun exit h => ?_, fun _ _ h => (nomatch h)⟩
      cases h
      exact ⟨fun h => (nomatch h), fun h => (nomatch h)⟩
  · revert hstatus
    rcases writeRecorderReferences next g.maximumBytes with ⟨status, output, error⟩
    rintro rfl
    refine ⟨fun exit h => ?_, fun _ _ h => (nomatch h)⟩
    cases h
    exact ⟨by decide, by decide⟩

/-- No round of a capture runs out of room, if every payload that was appended before has room. -/
theorem HasRoom.acquireRounds (hC : C.Lawful) (hfits : 20 + referenceReserve C g ≤ g.maximumBytes)
    (hsize : ∀ x : RecorderReferenceSnapshot C,
      x.toBytes.length ≤ C.headerBytes + 56 + x.rowBytes.length)
    (happended : ∀ payload ∈ appended, HasRoom C g payload) {awaiting : Awaiting}
    {inputs : List (RoundInput C)} (hserved : Served C g awaiting appended inputs) :
    (Corpus.acquireRounds C g awaiting inputs).2 ≠ some .outOfRange ∧
      (Corpus.acquireRounds C g awaiting inputs).2 ≠ some (.unwritten .outOfRange) ∧
      ∀ payload ∈ (Corpus.acquireRounds C g awaiting inputs).1, HasRoom C g payload := by
  induction inputs generalizing awaiting appended with
  | nil => exact ⟨fun h => (nomatch h), fun h => (nomatch h), fun _ h => (nomatch h)⟩
  | cons input inputs ih =>
    obtain ⟨hcut, hnext⟩ := hserved
    obtain ⟨hexit, hpayload⟩ := HasRoom.acquireRound hC hfits hsize happended awaiting hcut
    rw [Corpus.acquireRounds]
    cases hround : Corpus.acquireRound C g awaiting input with
    | error exit =>
      obtain ⟨h1, h2⟩ := hexit exit hround
      exact ⟨fun h => h1 (Option.some.inj h), fun h => h2 (Option.some.inj h),
        fun _ h => (nomatch h)⟩
    | ok result =>
      obtain ⟨next, payload⟩ := result
      have hnew : ∀ p ∈ payload.toList, HasRoom C g p := by
        intro p hp
        obtain rfl := Option.mem_toList.mp hp
        exact hpayload next p hround
      have hall : ∀ p ∈ appended ++ payload.toList, HasRoom C g p := fun p hp =>
        (List.mem_append.mp hp).elim (happended p) (hnew p)
      obtain ⟨h1, h2, h3⟩ := ih hall (hnext next payload hround)
      exact ⟨h1, h2, fun p hp => (List.mem_append.mp hp).elim (hnew p) (h3 p)⟩

/-- The acquisition stays within its budget. For every setup whose reserve fits, and with snapshots
that together with a payload's header take no more than their allowance, no round runs out of room
whatever it acquires: none ends with `OutOfRange`, and every payload is within the limits. -/
theorem acquisition_within (hC : C.Lawful) (g : ReferenceSetup)
    (hfits : 20 + g.identities.length * 5 * (C.headerBytes + 64) ≤ g.maximumBytes)
    (hsize : ∀ x : RecorderReferenceSnapshot C,
      x.toBytes.length ≤ C.headerBytes + 56 + x.rowBytes.length)
    (inputs : List (RoundInput C)) (hserved : Served C g {} [] inputs) :
    (acquireRounds C g {} inputs).2 ≠ some .outOfRange ∧
      (acquireRounds C g {} inputs).2 ≠ some (.unwritten .outOfRange) ∧
      ∀ payload ∈ (acquireRounds C g {} inputs).1, payload.length ≤ g.maximumBytes ∧
        ∃ history, readRecorderReferences C payload = .ok history ∧
          history.length ≤ kRecorderReferenceMaximumSnapshots := by
  have hnone : ∀ payload ∈ ([] : List Bytes), HasRoom C g payload := fun _ h => (nomatch h)
  obtain ⟨h1, h2, h3⟩ := HasRoom.acquireRounds hC hfits hsize hnone hserved
  refine ⟨h1, h2, fun payload hp => ?_⟩
  obtain ⟨history, hread, hroom⟩ := h3 payload hp
  exact ⟨hroom.within.1, history, hread, hroom.within.2⟩

/-- One product, and the least budget that is accepted. -/
def smallSetup : ReferenceSetup where
  identities := [(1, 1)]
  maximumBytes := 1048576
  nodup := by decide
  count_le := by decide
  minimum_le := by decide
  le_maximum := by decide

/-- A header of the sample contract, for the instruments of the product. -/
def sampleHeader (generation rowBytes : ℕ) : Raw 48 :=
  Raw.ofBytes 48 (pack [8, 8, 1, 1, 1, 5, 4, 4, 16] [1, generation, 1, 1, 1, 0, 1, rowBytes, 0])

/-- A round in which the instruments are there and nothing else is. -/
def instrumentsRound (reserved : ℕ) (cut : Option (ℕ × Bytes)) (generation : ℕ) (rows : Bytes) :
    RoundInput (sampleContract reserved) where
  cut
  acquired pair := some {
    status := if pair.dataset = .instruments then .ready else .missing
    header := sampleHeader generation rows.length
    rows := if pair.dataset = .instruments then rows else []
    monotonicNs := 5
    realtimeNs := 5 }
  appended := .ok

/-- A round that starts from a cut without references. -/
def firstRound : RoundInput (sampleContract 2) := instrumentsRound 2 (some (1, [])) 1 [7, 7, 7]

/-- The payload that it appends, with five snapshots. -/
def firstPayload : Bytes := (acquireRounds (sampleContract 2) smallSetup {} [firstRound]).1.headD []

/-- What binding it gives. -/
def firstBound : Status × Bytes :=
  bindRecorderReferenceVisibility (sampleContract 2) firstPayload [] (2 : UInt64).toNat
    (100 : UInt64).toNat

/-- A round that starts from the cut with the bound payload, and for which the instruments are new. -/
def secondRound : RoundInput (sampleContract 2) := instrumentsRound 2 (some (2, firstBound.2)) 2 [7, 7]

theorem served_secondRound : Served (sampleContract 2) smallSetup {} [] [firstRound, secondRound] := by
  refine ⟨.inl rfl, fun next payload h => ⟨.inr ⟨firstPayload, ?_, [], 2, 100, ?_⟩,
    fun _ _ _ => trivial⟩⟩
  · have hfirst : (acquireRounds (sampleContract 2) smallSetup {} [firstRound]).1 = [firstPayload] := by
      decide +kernel
    rw [acquireRounds, h] at hfirst
    simpa [acquireRounds] using hfirst
  · have hbound : firstBound.1 = .ok := by decide +kernel
    change firstBound = (.ok, firstBound.2)
    rw [← hbound]

/-- Both rounds append a payload, the second one with a snapshot more. -/
theorem acquisition_within_twice :
    (acquireRounds (sampleContract 2) smallSetup {} [firstRound, secondRound]).1.map List.length =
        [471, 565] ∧
      (acquireRounds (sampleContract 2) smallSetup {} [firstRound, secondRound]).2 ≠
        some .outOfRange := by
  refine ⟨by decide +kernel, (acquisition_within (lawful_sampleContract 2) smallSetup (by decide)
    (fun x => ?_) [firstRound, secondRound] served_secondRound).1⟩
  rw [RecorderReferenceSnapshot.length_toBytes]
  exact Nat.add_le_add_right (by decide) _

/-! ## A budget that runs out

A contract whose snapshots take up the whole allowance, and rows that fill the budget up to the
reserve. The rows are known by their number alone. -/

section RunsOut

variable {rows : Bytes}

def fullSnapshot (rows : Bytes) : RecorderReferenceSnapshot (sampleContract 22) where
  product := (sampleContract 22).productFor 1 1
  dataset := 1
  presence := .present
  acquiredMonotonicNs := 5
  acquiredRealtimeNs := 5
  producer := sampleHeader 1 rows.length
  rowBytes := rows

def fence (dataset : UInt8) : RecorderReferenceSnapshot (sampleContract 22) where
  product := (sampleContract 22).productFor 1 1
  dataset
  presence := .capacityExceeded
  acquiredMonotonicNs := 5
  acquiredRealtimeNs := 5
  producer := (sampleContract 22).defaultHeader

def fullHistory (rows : Bytes) : List (RecorderReferenceSnapshot (sampleContract 22)) :=
  [fullSnapshot rows, fence 2, fence 3, fence 4, fence 5]

theorem acquirePair_full (hrows : rows.length = 1047904) :
    acquirePair smallSetup ⟨1, 1, .instruments⟩
      (⟨.ready, sampleHeader 1 rows.length, rows, 5, 5⟩ : Acquired (sampleContract 22)) [] 0 =
      .ok ([fullSnapshot rows], 1048016) := by
  have hroom : roomUsedUp smallSetup
      (⟨.ready, sampleHeader 1 rows.length, rows, 5, 5⟩ : Acquired (sampleContract 22)) [] 0 =
      false := by
    simp only [roomUsedUp, hrows]
    decide
  have hpush : pushSnapshot smallSetup (fullSnapshot rows) [] 0 =
      .ok ([fullSnapshot rows], 0 + (referenceOverhead (sampleContract 22) + rows.length)) :=
    pushSnapshot_of_fits (by simp only [fullSnapshot, hrows]; decide) (by decide)
  have hclock : ¬((5 : UInt64) = 0 ∨ (5 : UInt64) = 0) := by decide
  rw [hrows] at hpush
  rw [acquirePair, if_neg hclock, hroom]
  exact hpush

theorem acquirePair_missing {header : Raw 48} {dataset : ReferenceDatasetKind} {bytes : ℕ}
    {history : List (RecorderReferenceSnapshot (sampleContract 22))}
    (hlast : lastOf ⟨1, 1, dataset⟩ history = none) (hused : 1048576 < bytes + 672)
    (hfits : bytes + 112 ≤ 1048576) (hcount : history.length < kRecorderReferenceMaximumSnapshots) :
    acquirePair smallSetup ⟨1, 1, dataset⟩
      (⟨.missing, header, [], 5, 5⟩ : Acquired (sampleContract 22)) history bytes =
      .ok (history ++ [fence (sampleDataset dataset)], bytes + 112) := by
  have hroom : roomUsedUp smallSetup
      (⟨.missing, header, [], 5, 5⟩ : Acquired (sampleContract 22)) history bytes = true := by
    rw [roomUsedUp, Bool.or_eq_true, decide_eq_true_eq, decide_eq_true_eq]
    exact .inr hused
  have hclock : ¬((5 : UInt64) = 0 ∨ (5 : UInt64) = 0) := by decide
  rw [acquirePair, if_neg hclock, unchanged, fenced, hlast, hroom]
  exact pushSnapshot_of_fits hfits hcount

/-- The first round uses up the budget, but for 112 bytes. -/
theorem acquirePairs_full (hrows : rows.length = 1047904) :
    acquirePairs smallSetup (instrumentsRound 22 (some (1, [])) 1 rows).acquired smallSetup.pairs [] 0 =
      .ok (fullHistory rows, 1048464) := by
  have hpairs : smallSetup.pairs = [⟨1, 1, .instruments⟩, ⟨1, 1, .ticker24h⟩,
    ⟨1, 1, .deliveryBasis⟩, ⟨1, 1, .centralBankRate⟩, ⟨1, 1, .centralBankDecision⟩] := rfl
  have hfirst : (instrumentsRound 22 (some (1, [])) 1 rows).acquired ⟨1, 1, .instruments⟩ =
      some ⟨.ready, sampleHeader 1 rows.length, rows, 5, 5⟩ := rfl
  have hother : ∀ dataset, dataset ≠ .instruments →
      (instrumentsRound 22 (some (1, [])) 1 rows).acquired ⟨1, 1, dataset⟩ =
        some ⟨.missing, sampleHeader 1 rows.length, [], 5, 5⟩ := by
    intro dataset hne
    simp only [instrumentsRound, if_neg hne]
  have h2 : acquirePair smallSetup ⟨1, 1, .ticker24h⟩
      (⟨.missing, sampleHeader 1 rows.length, [], 5, 5⟩ : Acquired (sampleContract 22))
      [fullSnapshot rows] 1048016 = .ok ([fullSnapshot rows, fence 2], 1048128) :=
    acquirePair_missing rfl (by decide) (by decide) (show 1 < 65536 by decide)
  have h3 : acquirePair smallSetup ⟨1, 1, .deliveryBasis⟩
      (⟨.missing, sampleHeader 1 rows.length, [], 5, 5⟩ : Acquired (sampleContract 22))
      [fullSnapshot rows, fence 2] 1048128 = .ok ([fullSnapshot rows, fence 2, fence 3], 1048240) :=
    acquirePair_missing rfl (by decide) (by decide) (show 2 < 65536 by decide)
  have h4 : acquirePair smallSetup ⟨1, 1, .centralBankRate⟩
      (⟨.missing, sampleHeader 1 rows.length, [], 5, 5⟩ : Acquired (sampleContract 22))
      [fullSnapshot rows, fence 2, fence 3] 1048240 =
      .ok ([fullSnapshot rows, fence 2, fence 3, fence 4], 1048352) :=
    acquirePair_missing rfl (by decide) (by decide) (show 3 < 65536 by decide)
  have h5 : acquirePair smallSetup ⟨1, 1, .centralBankDecision⟩
      (⟨.missing, sampleHeader 1 rows.length, [], 5, 5⟩ : Acquired (sampleContract 22))
      [fullSnapshot rows, fence 2, fence 3, fence 4] 1048352 = .ok (fullHistory rows, 1048464) :=
    acquirePair_missing rfl (by decide) (by decide) (show 4 < 65536 by decide)
  rw [hpairs]
  simp only [acquirePairs, hfirst, hother _ (by decide : ReferenceDatasetKind.ticker24h ≠ _),
    hother _ (by decide : ReferenceDatasetKind.deliveryBasis ≠ _),
    hother _ (by decide : ReferenceDatasetKind.centralBankRate ≠ _),
    hother _ (by decide : ReferenceDatasetKind.centralBankDecision ≠ _), acquirePair_full hrows, h2,
    h3, h4, h5]

theorem valid_fullHistory (hrows : rows.length = 1047904) :
    ∀ x ∈ fullHistory rows, x.valid = true := by
  have hfull : (fullSnapshot rows).valid = true := by
    unfold RecorderReferenceSnapshot.valid
    simp only [fullSnapshot, hrows]
    rw [if_neg (by decide), if_neg (by decide)]
    decide
  simp only [fullHistory, List.forall_mem_cons]
  exact ⟨hfull, by decide, by decide, by decide, by decide, by simp⟩

theorem length_fullHistory (hrows : rows.length = 1047904) :
    (encodeReferences (fullHistory rows)).length = 1048472 := by
  simp only [length_encodeReferences, fullHistory, written_cons, List.length_append,
    RecorderReferenceSnapshot.length_toBytes, fullSnapshot, hrows]
  rfl

theorem count_fullHistory : (fullHistory rows).length ≤ kRecorderReferenceMaximumSnapshots :=
  show 5 ≤ 65536 by decide

theorem acquireRound_full (hrows : rows.length = 1047904) :
    acquireRound (sampleContract 22) smallSetup {} (instrumentsRound 22 (some (1, [])) 1 rows) =
      .ok (⟨1, 5⟩, some (encodeReferences (fullHistory rows))) := by
  have hread : readRecorderReferences (sampleContract 22) [] = .ok [] := rfl
  have hwrite := writeRecorderReferences_of_valid smallSetup.le_maximum count_fullHistory
    (valid_fullHistory hrows) (by rw [length_fullHistory hrows]; decide)
  have hcut : (instrumentsRound 22 (some (1, [])) 1 rows).cut = some (1, []) := rfl
  have hgrew : ¬(fullHistory rows).length = ([] : List (RecorderReferenceSnapshot
      (sampleContract 22))).length := show ¬5 = 0 by decide
  unfold acquireRound
  simp only [hcut, Option.map_some, Option.getD_some, hread]
  rw [if_neg (by decide), if_neg (by decide), if_neg (by decide), List.length_nil,
    acquirePairs_full hrows]
  dsimp only
  rw [if_neg hgrew, hwrite]
  rfl

/-- The history of the cut that has this payload. -/
def committedHistory (rows : Bytes) : List (RecorderReferenceSnapshot (sampleContract 22)) :=
  (fullHistory rows).map (·.visibleFrom 2 100)

theorem same_committedHistory : SameObservations (committedHistory rows) (fullHistory rows) := rfl

theorem count_committedHistory :
    (committedHistory rows).length ≤ kRecorderReferenceMaximumSnapshots :=
  show 5 ≤ 65536 by decide

theorem length_committedHistory (hrows : rows.length = 1047904) :
    (encodeReferences (committedHistory rows)).length = 1048472 := by
  rw [length_encodeReferences, same_committedHistory.bytes_eq, ← length_encodeReferences,
    length_fullHistory hrows]

theorem valid_committedHistory (hrows : rows.length = 1047904) :
    ∀ x ∈ committedHistory rows, x.valid = true := by
  intro x hx
  obtain ⟨y, hy, rfl⟩ := List.mem_map.mp hx
  refine valid_visibleFrom (valid_fullHistory hrows y hy) (by decide) (by decide) ?_
  have hacquired : ∀ y ∈ fullHistory rows, y.acquiredMonotonicNs = 5 := by
    simp only [fullHistory, List.forall_mem_cons]
    exact ⟨rfl, rfl, rfl, rfl, rfl, by simp⟩
  rw [hacquired y hy]
  decide

theorem bind_fullHistory (hrows : rows.length = 1047904) :
    bindRecorderReferenceVisibility (sampleContract 22) (encodeReferences (fullHistory rows)) [] 2 100 =
      (.ok, encodeReferences (committedHistory rows)) := by
  have hlength := length_fullHistory hrows
  have hread := readRecorderReferences_encode count_fullHistory (valid_fullHistory hrows)
    (by rw [hlength]; decide)
  have hnone : readRecorderReferences (sampleContract 22) [] = .ok [] := rfl
  have hbound : bindSnapshots (UInt64.ofNat 2) (UInt64.ofNat 100) [] (fullHistory rows) =
      some (committedHistory rows) := rfl
  have hwrite := writeRecorderReferences_of_valid le_rfl count_committedHistory
    (valid_committedHistory hrows)
    (by rw [length_committedHistory hrows]; decide)
  have hne : encodeReferences (fullHistory rows) ≠ [] := by
    intro h
    rw [h] at hlength
    cases hlength
  rw [bindRecorderReferenceVisibility, if_neg hne, if_neg (by decide), hread, hnone]
  dsimp only
  rw [if_neg (by simp), hbound]
  dsimp only
  rw [hwrite]

/-- The second round has no room for the fence of the instruments. -/
theorem acquireRound_committed (hrows : rows.length = 1047904) :
    acquireRound (sampleContract 22) smallSetup ⟨1, 5⟩
      (instrumentsRound 22 (some (2, encodeReferences (committedHistory rows))) 2 []) =
      .error .outOfRange := by
  have hread := readRecorderReferences_encode count_committedHistory (valid_committedHistory hrows)
    (by rw [length_committedHistory hrows]; decide)
  have hpair : acquirePair smallSetup ⟨1, 1, .instruments⟩
      (⟨.ready, sampleHeader 2 0, [], 5, 5⟩ : Acquired (sampleContract 22)) (committedHistory rows)
      1048472 = .error .outOfRange := by
    have hroom : roomUsedUp smallSetup
        (⟨.ready, sampleHeader 2 0, [], 5, 5⟩ : Acquired (sampleContract 22)) (committedHistory rows)
        1048472 = true := by
      rw [roomUsedUp, Bool.or_eq_true, decide_eq_true_eq, decide_eq_true_eq]
      exact .inr (show 1048576 < 1048472 + 112 + 0 + 560 by decide)
    have hlast : lastOf ⟨1, 1, .instruments⟩ (committedHistory rows) =
        some ((fullSnapshot rows).visibleFrom 2 100) := rfl
    have hclock : ¬((5 : UInt64) = 0 ∨ (5 : UInt64) = 0) := by decide
    have hchanged : unchanged (some ((fullSnapshot rows).visibleFrom 2 100))
        (acquiredSnapshot ⟨1, 1, .instruments⟩
          (⟨.ready, sampleHeader 2 0, [], 5, 5⟩ : Acquired (sampleContract 22))) = false := by
      simp only [unchanged, Option.any_some, RecorderReferenceSnapshot.visibleFrom, fullSnapshot, hrows]
      decide
    have hpush : pushSnapshot smallSetup (fence 1) (committedHistory rows) 1048472 =
        .error .outOfRange := pushSnapshot_of_full (by decide)
    rw [acquirePair, if_neg hclock, hlast, hchanged, fenced, hlast, hroom]
    exact hpush
  have hpairs : acquirePairs smallSetup
      (instrumentsRound 22 (some (2, encodeReferences (committedHistory rows))) 2 []).acquired
      smallSetup.pairs (committedHistory rows) 1048472 = .error .outOfRange := by
    have hlist : smallSetup.pairs = ⟨1, 1, .instruments⟩ :: smallSetup.pairs.tail := rfl
    have hfirst : (instrumentsRound 22 (some (2, encodeReferences (committedHistory rows))) 2
        []).acquired ⟨1, 1, .instruments⟩ = some ⟨.ready, sampleHeader 2 0, [], 5, 5⟩ := rfl
    rw [hlist, acquirePairs, hfirst]
    simp only [hpair]
  have hcut : (instrumentsRound 22 (some (2, encodeReferences (committedHistory rows))) 2 []).cut =
      some (2, encodeReferences (committedHistory rows)) := rfl
  have hwait : ¬((5 : ℕ) ≠ 0 ∧ (committedHistory rows).length < 5) :=
    show ¬((5 : ℕ) ≠ 0 ∧ 5 < 5) by decide
  unfold acquireRound
  simp only [hcut, Option.map_some, Option.getD_some, hread]
  rw [if_neg (by simp), if_neg hwait, if_neg (by simp), length_committedHistory hrows, hpairs]

end RunsOut

/-- A snapshot of this contract takes the header, 64 bytes, and its rows, and the reserve fits the
budget, and there are two rounds after which the acquisition has run out of room. -/
theorem acquisition_runs_out :
    (∀ x : RecorderReferenceSnapshot (sampleContract 22),
      x.toBytes.length ≤ (sampleContract 22).headerBytes + 64 + x.rowBytes.length) ∧
    20 + smallSetup.identities.length * 5 * ((sampleContract 22).headerBytes + 64) ≤
      smallSetup.maximumBytes ∧
    ∃ inputs, Served (sampleContract 22) smallSetup {} [] inputs ∧
      (acquireRounds (sampleContract 22) smallSetup {} inputs).2 = some .outOfRange := by
  obtain ⟨rows, hrows⟩ : ∃ rows : Bytes, rows.length = 1047904 :=
    ⟨List.replicate 1047904 0, List.length_replicate⟩
  refine ⟨fun x => ?_, by decide, [instrumentsRound 22 (some (1, [])) 1 rows,
    instrumentsRound 22 (some (2, encodeReferences (committedHistory rows))) 2 []],
    ⟨.inl rfl, fun next payload h => ⟨.inr ?_, fun _ _ _ => trivial⟩⟩, ?_⟩
  · rw [RecorderReferenceSnapshot.length_toBytes]
    exact Nat.add_le_add_right (by decide) _
  · rw [acquireRound_full hrows] at h
    cases h
    exact ⟨_, List.mem_append_right _ (List.mem_singleton_self _), [], 2, 100,
      bind_fullHistory hrows⟩
  · rw [acquireRounds, acquireRound_full hrows]
    dsimp only
    rw [acquireRounds, acquireRound_committed hrows]

end HftRecorder.Corpus
