import HftRecorder.Reference.Payload
import HftRecorder.Writer.Solvency

/-!
# From which cut a reference snapshot is visible

`bindRecorderReferenceVisibility` is the callback with which the writer publishes its reference
payload: the snapshots of the previous cut must be there unchanged and keep their visibility, and
the others become visible with this cut. The writer keeps the payload that was set, without any
visibility, and binds it again at every cut against the payload that the latest cut has. So the
history of a cut extends the one of the cut before it (`ReferencesExtend`), and this carries over
whole runs, whatever the directory does, because it is read off the latest cut alone.

Of a snapshot's product the callback compares the exchange and the market only. The other bytes of the
product are those of the payload that was set last: they can change (`product_bytes_change`), unless
the exchange and the market determine a valid product.
-/

namespace HftRecorder.Corpus

open ByteLayout RecorderReferenceSnapshot

variable {C : ReferenceContract}

/-! ## Binding -/

/-- The snapshot is the one of the previous cut, before its visibility is bound. -/
def sameObservation (value old : RecorderReferenceSnapshot C) : Bool :=
  C.exchangeRaw value.product == C.exchangeRaw old.product &&
    C.marketRaw value.product == C.marketRaw old.product && value.dataset == old.dataset &&
    value.presence == old.presence && value.acquiredMonotonicNs == old.acquiredMonotonicNs &&
    value.acquiredRealtimeNs == old.acquiredRealtimeNs &&
    C.producerEpoch value.producer == C.producerEpoch old.producer &&
    C.generation value.producer == C.generation old.producer && value.producer == old.producer &&
    value.rowBytes == old.rowBytes && old.visibleFromCutGeneration != 0 &&
    old.visibleFromMonotonicNs != 0

def RecorderReferenceSnapshot.visibleFrom (x : RecorderReferenceSnapshot C)
    (generation monotonicNs : UInt64) : RecorderReferenceSnapshot C :=
  { x with visibleFromCutGeneration := generation, visibleFromMonotonicNs := monotonicNs }

/-- The loop of `bindRecorderReferenceVisibility` over the prior and the current snapshots. -/
def bindSnapshots (generation committedMonotonicNs : UInt64) :
    List (RecorderReferenceSnapshot C) → List (RecorderReferenceSnapshot C) →
      Option (List (RecorderReferenceSnapshot C))
  | _, [] => some []
  | old :: prior, value :: current =>
    if !sameObservation value old then none
    else
      (bindSnapshots generation committedMonotonicNs prior current).map
        (value.visibleFrom old.visibleFromCutGeneration old.visibleFromMonotonicNs :: ·)
  | [], value :: current =>
    if value.visibleFromCutGeneration ≠ 0 ∨ value.visibleFromMonotonicNs ≠ 0 ∨
        value.acquiredMonotonicNs > committedMonotonicNs then none
    else
      (bindSnapshots generation committedMonotonicNs [] current).map
        (value.visibleFrom generation committedMonotonicNs :: ·)

/-- `bindRecorderReferenceVisibility`: the status and the payload. -/
def bindRecorderReferenceVisibility (C : ReferenceContract) (payload previous : Bytes)
    (generation committedMonotonicNs : ℕ) : Status × Bytes :=
  if payload = [] then (if previous = [] then .ok else .corruptData, payload)
  else if generation = 0 ∨ committedMonotonicNs = 0 then (.invalidArgument, payload)
  else
    match readRecorderReferences C payload with
    | .error (status, _) => (status, payload)
    | .ok current =>
      match readRecorderReferences C previous with
      | .error (status, _) => (status, payload)
      | .ok prior =>
        if current.length < prior.length then (.corruptData, payload)
        else
          match bindSnapshots (UInt64.ofNat generation) (UInt64.ofNat committedMonotonicNs) prior
              current with
          | none => (.corruptData, payload)
          | some bound =>
            let (status, output, _) := writeRecorderReferences bound kRecorderReferenceMaximumBytes
            (status, output)

variable {generation monotonicNs : UInt64}

theorem valid_visibleFrom {x : RecorderReferenceSnapshot C} (h : x.valid = true)
    (hgeneration : generation ≠ 0) (hmonotonic : monotonicNs ≠ 0)
    (hacquired : x.acquiredMonotonicNs ≤ monotonicNs) :
    (x.visibleFrom generation monotonicNs).valid = true := by
  have hg : (generation == 0) = false := by simpa using hgeneration
  have hm : (monotonicNs == 0) = false := by simpa using hmonotonic
  have hlt : ¬monotonicNs < x.acquiredMonotonicNs := UInt64.not_lt.mpr hacquired
  unfold RecorderReferenceSnapshot.valid at h ⊢
  split at h
  · cases h
  rename_i htests
  simp only [Bool.or_eq_true, not_or, Bool.not_eq_true] at htests
  simp only [visibleFrom, hg, hm, hlt, htests.1.1.1.1.1.1,
    htests.1.1.1.1.1.2, htests.1.1.1.1.2, htests.1.1.1.2, htests.1.1.2, bne_self_eq_false,
    decide_false, Bool.and_false, Bool.or_false, Bool.false_eq_true, if_false]
  exact h

/-- The snapshot is one of an earlier cut: all its members are unchanged, the product as far as it is
compared. -/
structure KeptSnapshot (old x : RecorderReferenceSnapshot C) : Prop where
  members_eq : x = { old with product := x.product }
  exchange_eq : C.exchangeRaw x.product = C.exchangeRaw old.product
  market_eq : C.marketRaw x.product = C.marketRaw old.product

/-- A snapshot that is found again keeps its visibility, and is valid with it. -/
theorem keptSnapshot_visibleFrom {value old : RecorderReferenceSnapshot C}
    (hvalue : value.valid = true) (hold : old.valid = true) (h : sameObservation value old = true) :
    KeptSnapshot old
        (value.visibleFrom old.visibleFromCutGeneration old.visibleFromMonotonicNs) ∧
      (value.visibleFrom old.visibleFromCutGeneration old.visibleFromMonotonicNs).valid = true := by
  simp only [sameObservation, Bool.and_eq_true, beq_iff_eq, bne_iff_ne] at h
  obtain ⟨⟨⟨⟨⟨⟨⟨⟨⟨⟨⟨hexchange, hmarket⟩, hdataset⟩, hpresence⟩, hmonotonic⟩, hrealtime⟩, -⟩, -⟩,
    hproducer⟩, hrows⟩, hgeneration⟩, hvisible⟩ := h
  refine ⟨⟨?_, hexchange, hmarket⟩, valid_visibleFrom hvalue hgeneration hvisible ?_⟩
  · exact RecorderReferenceSnapshot.ext rfl hdataset hpresence hmonotonic hrealtime rfl rfl hproducer
      hrows
  · rw [hmonotonic]
    exact (RecorderReferenceSnapshot.of_valid hold).2.2 hvisible

theorem eq_of_kept (hC : C.ProductsDetermined) {prior kept : List (RecorderReferenceSnapshot C)}
    (h : List.Forall₂ KeptSnapshot prior kept) (hprior : ∀ x ∈ prior, x.valid = true)
    (hkept : ∀ x ∈ kept, x.valid = true) : kept = prior := by
  induction h with
  | nil => rfl
  | @cons old x prior kept hx _ ih =>
    rw [List.forall_mem_cons] at hprior hkept
    have hproduct : x.product = old.product :=
      hC (RecorderReferenceSnapshot.of_valid hkept.1).1
        (RecorderReferenceSnapshot.of_valid hprior.1).1 hx.exchange_eq hx.market_eq
    rw [ih hprior.2 hkept.2, hx.members_eq, hproduct]

/-- The two histories are the same but for the visibility of their snapshots. -/
def SameObservations (a b : List (RecorderReferenceSnapshot C)) : Prop :=
  a.map (·.visibleFrom 0 0) = b.map (·.visibleFrom 0 0)

theorem SameObservations.bytes_eq {a b : List (RecorderReferenceSnapshot C)}
    (h : SameObservations a b) :
    (written toBytes a).length =
      (written toBytes b).length := by
  have hone : ∀ x : RecorderReferenceSnapshot C,
      x.toBytes.length = (x.visibleFrom 0 0).toBytes.length := fun x => by
    rw [length_toBytes, length_toBytes, visibleFrom]
  have hlist : ∀ l : List (RecorderReferenceSnapshot C),
      (written toBytes l).length =
        (written toBytes (l.map (·.visibleFrom 0 0))).length := by
    intro l
    induction l with
    | nil => rfl
    | cons x l ih =>
      rw [List.map_cons, written_cons, written_cons, List.length_append, List.length_append, ih,
        hone]
  rw [hlist, h, ← hlist]

theorem SameObservations.length_eq {a b : List (RecorderReferenceSnapshot C)}
    (h : SameObservations a b) : a.length = b.length := by
  simpa using congrArg List.length h

/-- What a bound history is: the prior one, and after it snapshots that are visible from this cut on.
Only the visibility is bound. -/
structure Bound (generation monotonicNs : UInt64)
    (prior current bound : List (RecorderReferenceSnapshot C)) : Prop where
  kept : List.Forall₂ KeptSnapshot prior (bound.take prior.length)
  added : ∀ x ∈ bound.drop prior.length,
    x.visibleFromCutGeneration = generation ∧ x.visibleFromMonotonicNs = monotonicNs
  valid : ∀ x ∈ bound, x.valid = true
  same : SameObservations bound current

/-- Binding gives a bound history, for a commit whose generation and time are not zero. -/
theorem bound_bindSnapshots (hgeneration : generation ≠ 0) (hmonotonic : monotonicNs ≠ 0)
    {prior current bound : List (RecorderReferenceSnapshot C)}
    (hlength : prior.length ≤ current.length) (hprior : ∀ x ∈ prior, x.valid = true)
    (hcurrent : ∀ x ∈ current, x.valid = true)
    (h : bindSnapshots generation monotonicNs prior current = some bound) :
    Bound generation monotonicNs prior current bound := by
  induction current generalizing prior bound with
  | nil =>
    obtain rfl : prior = [] := List.eq_nil_of_length_eq_zero (Nat.le_zero.mp hlength)
    rw [bindSnapshots] at h
    cases h
    refine ⟨.nil, ?_, ?_, rfl⟩ <;> intro x hx <;> cases hx
  | cons value current ih =>
    obtain ⟨hvalue, hrest⟩ := List.forall_mem_cons.mp hcurrent
    cases prior with
    | nil =>
      rw [bindSnapshots] at h
      split at h
      · cases h
      rename_i htests
      simp only [ne_eq, not_or, not_not, gt_iff_lt, UInt64.not_lt] at htests
      obtain ⟨tail, htail, rfl⟩ := Option.map_eq_some_iff.mp h
      have hbound := ih (Nat.zero_le _) hprior hrest htail
      -- The new snapshot is visible from this cut on.
      exact ⟨.nil, List.forall_mem_cons.mpr ⟨⟨rfl, rfl⟩, hbound.added⟩,
        List.forall_mem_cons.mpr
          ⟨valid_visibleFrom hvalue hgeneration hmonotonic htests.2.2, hbound.valid⟩,
        congrArg (value.visibleFrom 0 0 :: ·) hbound.same⟩
    | cons old prior =>
      rw [bindSnapshots] at h
      split at h
      · cases h
      rename_i hsame
      obtain ⟨tail, htail, rfl⟩ := Option.map_eq_some_iff.mp h
      obtain ⟨hold, hpriorRest⟩ := List.forall_mem_cons.mp hprior
      have hbound := ih (Nat.le_of_succ_le_succ hlength) hpriorRest hrest htail
      obtain ⟨hkept, hvalid⟩ := keptSnapshot_visibleFrom hvalue hold (by simpa using hsame)
      exact ⟨.cons hkept hbound.kept, hbound.added,
        List.forall_mem_cons.mpr ⟨hvalid, hbound.valid⟩,
        congrArg (value.visibleFrom 0 0 :: ·) hbound.same⟩

theorem Bound.payload {prior current bound : List (RecorderReferenceSnapshot C)}
    (h : Bound generation monotonicNs prior current bound)
    (hcount : current.length ≤ kRecorderReferenceMaximumSnapshots)
    (hbytes : (encodeReferences current).length ≤ kRecorderReferenceMaximumBytes) :
    writeRecorderReferences bound kRecorderReferenceMaximumBytes =
        (.ok, encodeReferences bound, "") ∧
      (encodeReferences bound).length = (encodeReferences current).length ∧
      readRecorderReferences C (encodeReferences bound) = .ok bound := by
  have hlength : (encodeReferences bound).length = (encodeReferences current).length := by
    rw [length_encodeReferences, length_encodeReferences, h.same.bytes_eq]
  rw [← hlength] at hbytes
  rw [← h.same.length_eq] at hcount
  exact ⟨writeRecorderReferences_of_valid le_rfl hcount h.valid hbytes, hlength,
    readRecorderReferences_encode hcount h.valid hbytes⟩

/-- The history of a cut extends a payload: its snapshots come first (`KeptSnapshot`), and the others
are visible from the cut on. -/
def ReferencesExtend (C : ReferenceContract) (previous : Bytes) (later : CorpusCut) : Prop :=
  ∃ prior current, readRecorderReferences C previous = .ok prior ∧
    readRecorderReferences C later.referencePayload = .ok current ∧
    List.Forall₂ KeptSnapshot prior (current.take prior.length) ∧
    ∀ x ∈ current.drop prior.length, x.visibleFromCutGeneration.toNat = later.generation ∧
      x.visibleFromMonotonicNs.toNat = later.committedMonotonicNs

/-- The history of a cut begins with that of a payload, byte for byte. -/
def ReferencesPrefix (C : ReferenceContract) (previous : Bytes) (later : CorpusCut) : Prop :=
  ∃ prior current, readRecorderReferences C previous = .ok prior ∧
    readRecorderReferences C later.referencePayload = .ok current ∧ prior <+: current

theorem valid_of_readRecorderReferences {b : Bytes} {snapshots : List (RecorderReferenceSnapshot C)}
    (h : readRecorderReferences C b = .ok snapshots) : ∀ x ∈ snapshots, x.valid = true := by
  rcases of_readRecorderReferences h with ⟨-, rfl⟩ | ⟨-, -, -, hvalid⟩
  · exact fun x hx => by cases hx
  · exact hvalid

theorem ReferencesExtend.referencesPrefix (hC : C.ProductsDetermined) {previous : Bytes}
    {later : CorpusCut} (h : ReferencesExtend C previous later) :
    ReferencesPrefix C previous later := by
  obtain ⟨prior, current, hprior, hcurrent, hkept, -⟩ := h
  refine ⟨prior, current, hprior, hcurrent, ?_⟩
  rw [← eq_of_kept hC hkept (valid_of_readRecorderReferences hprior)
    fun x hx => valid_of_readRecorderReferences hcurrent x (List.mem_of_mem_take hx)]
  exact List.take_prefix _ _

/-- What binding returns: a refusal with the payload as it was, or a payload of the same length whose
history is the given one, bound. -/
theorem bindRecorderReferenceVisibility_cases (payload previous : Bytes)
    {generation committedMonotonicNs : ℕ} (hgeneration : generation < 2 ^ 64)
    (hcommitted : committedMonotonicNs < 2 ^ 64) :
    (∃ status, status ≠ .ok ∧ bindRecorderReferenceVisibility C payload previous generation
        committedMonotonicNs = (status, payload)) ∨
      ∃ bound given prior current,
        bindRecorderReferenceVisibility C payload previous generation committedMonotonicNs =
          (.ok, bound) ∧
        bound.length = payload.length ∧ readRecorderReferences C payload = .ok given ∧
        SameObservations current given ∧ readRecorderReferences C previous = .ok prior ∧
        readRecorderReferences C bound = .ok current ∧
        List.Forall₂ KeptSnapshot prior (current.take prior.length) ∧
        ∀ x ∈ current.drop prior.length, x.visibleFromCutGeneration.toNat = generation ∧
          x.visibleFromMonotonicNs.toNat = committedMonotonicNs := by
  unfold bindRecorderReferenceVisibility
  split
  · rename_i hempty
    subst hempty
    split
    · rename_i hprevious
      subst hprevious
      exact .inr ⟨[], [], [], [], rfl, rfl, rfl, rfl, rfl, rfl, .nil, fun x hx => by cases hx⟩
    · exact .inl ⟨_, by decide, rfl⟩
  rename_i hne
  split
  · exact .inl ⟨_, by decide, rfl⟩
  rename_i hzero
  split
  · rename_i hread
    exact .inl ⟨_, readRecorderReferences_error_ne hread, rfl⟩
  rename_i current hcurrent
  split
  · rename_i hread
    exact .inl ⟨_, readRecorderReferences_error_ne hread, rfl⟩
  rename_i prior hprior
  split
  · exact .inl ⟨_, by decide, rfl⟩
  rename_i hlength
  split
  · exact .inl ⟨_, by decide, rfl⟩
  rename_i bound hbind
  -- The payload is one that the reader accepts, and it is not empty.
  have hpayload := of_readRecorderReferences hcurrent
  obtain ⟨hencoded, hbytes, hcount, hvalid⟩ := hpayload.resolve_left fun h => hne h.1
  have hnonzero : ∀ {n : ℕ}, n ≠ 0 → n < 2 ^ 64 → UInt64.ofNat n ≠ 0 := by
    intro n hn hlt h
    have hnat := congrArg UInt64.toNat h
    rw [UInt64.toNat_ofNat_of_lt' hlt] at hnat
    exact hn hnat
  have hbound := bound_bindSnapshots (hnonzero (fun h => hzero (.inl h)) hgeneration)
    (hnonzero (fun h => hzero (.inr h)) hcommitted) (not_lt.mp hlength)
    (valid_of_readRecorderReferences hprior) hvalid hbind
  obtain ⟨hwrite, hsize, hback⟩ := hbound.payload hcount (hencoded ▸ hbytes)
  refine .inr ⟨encodeReferences bound, current, prior, bound, ?_, ?_, hcurrent, hbound.same, hprior,
    hback, hbound.kept, fun x hx => ?_⟩
  · rw [hwrite]
  · rw [hsize, ← hencoded]
  · obtain ⟨hg, hm⟩ := hbound.added x hx
    rw [hg, hm, UInt64.toNat_ofNat_of_lt' hgeneration, UInt64.toNat_ofNat_of_lt' hcommitted]
    exact ⟨rfl, rfl⟩

/-! ## Runs of the writer -/

/-- The reference payload of the latest cut, empty without one. -/
def previousReferences (s : WriterState) : Bytes :=
  match s.publication.latest with
  | some previous => previous.referencePayload
  | none => []

/-- The cuts that the calls of a run publish, in order. Each publication counts the generation up. -/
def publishedCuts (X : Platform) : WriterState → List (WriterCall × List (Option ℕ)) → List CorpusCut
  | _, [] => []
  | s, (call, faults) :: calls =>
    let t := (execWith X s call faults).2
    (if t.cutGeneration = s.cutGeneration then [] else t.publication.latest.toList) ++
      publishedCuts X t calls

/-- The writer binds its reference payload, and its generation is in range. -/
structure Binding (C : ReferenceContract) (s : WriterState) : Prop where
  binder : s.config.referenceVisibilityBinder = some (bindRecorderReferenceVisibility C)
  generation_le : s.cutGeneration ≤ maximumUInt64

/-- The part of a state that publishing reads and changes. -/
def cutState (s : WriterState) : BinaryMarketWriterConfig × ℕ × Option CorpusCut :=
  (s.config, s.cutGeneration, s.publication.latest)

/-- What a call does about the cut: it leaves the latest one, or publishes one whose history extends
that of the latest. -/
inductive CutStep (C : ReferenceContract) (s t : WriterState) : Prop
  | kept (h : cutState t = cutState s)
  | published (cut : CorpusCut) (h : cutState t = (s.config, s.cutGeneration + 1, some cut))
      (hmaximum : s.cutGeneration < maximumUInt64)
      (hextend : ReferencesExtend C (previousReferences s) cut)

variable {X : Platform} {s t u : WriterState}

theorem cutState_of_kept (h : t.kept = s.kept) : cutState t = cutState s := by
  rw [cutState, cutState, config_of_kept h, cutGeneration_of_kept h, latest_of_kept h]

theorem CutStep.congr {s' t' : WriterState} (h : CutStep C s t) (hs : cutState s' = cutState s)
    (ht : cutState t' = cutState t) : CutStep C s' t' := by
  simp only [cutState, Prod.mk.injEq] at hs
  obtain ⟨hconfig, hgeneration, hlatest⟩ := hs
  cases h with
  | kept h => exact .kept (ht.trans (h.trans (by rw [cutState, cutState, hconfig, hgeneration, hlatest])))
  | published cut h hmaximum hextend =>
    refine .published cut (ht.trans (h.trans (by rw [hconfig, hgeneration]))) (hgeneration ▸ hmaximum) ?_
    rwa [previousReferences, hlatest]

theorem Binding.step (h : Binding C s) (hstep : CutStep C s t) : Binding C t := by
  cases hstep with
  | kept hkept =>
    simp only [cutState, Prod.mk.injEq] at hkept
    exact ⟨by rw [hkept.1, h.binder], by rw [hkept.2.1]; exact h.generation_le⟩
  | published cut hcut hmaximum =>
    simp only [cutState, Prod.mk.injEq] at hcut
    exact ⟨by rw [hcut.1, h.binder], by rw [hcut.2.1]; exact hmaximum⟩

variable {now : ℕ}

/-- The cut that the writer binds extends the history of the latest one. -/
theorem bindReference_extend (h : Binding C s) (hmaximum : s.cutGeneration < maximumUInt64)
    (hnow : now < 2 ^ 64) {cut : CorpusCut} (hbind : bindReference s (currentCut s now) = .ok cut) :
    ReferencesExtend C (previousReferences s) cut := by
  have hgeneration : s.cutGeneration + 1 < 2 ^ 64 := by
    have hmax : maximumUInt64 = 2 ^ 64 - 1 := rfl
    omega
  have hcases := bindRecorderReferenceVisibility_cases (C := C) s.referencePayload
    (previousReferences s) hgeneration hnow
  unfold bindReference at hbind
  rw [h.binder] at hbind
  dsimp only at hbind
  split at hbind
  · rename_i payload hcall
    replace hcall : bindRecorderReferenceVisibility C s.referencePayload (previousReferences s)
        (s.cutGeneration + 1) now = (.ok, payload) := hcall
    split at hbind
    · cases hbind
    split at hbind
    · cases hbind
    cases hbind
    rcases hcases with ⟨status, hne, hstatus⟩ | ⟨bound, given, prior, current, hbound, -, -, -,
      hextend⟩
    · rw [hcall] at hstatus
      cases hstatus
      exact absurd rfl hne
    · rw [hcall] at hbound
      cases hbound
      exact ⟨prior, current, hextend⟩
  · cases hbind

variable {result : Status × WriterState}

theorem Published.cutStep (hs : Binding C s) (hnow : now < 2 ^ 64) (h : Published X s now result) :
    CutStep C s result.2 := by
  cases h with
  | failed _ hchanges => exact .kept (cutState_of_kept hchanges.kept_eq)
  | @published u before after cut _ hgeneration hflush _ hbind =>
    have hu : cutState u = cutState s := cutState_of_kept (changes_flushAll hflush).kept_eq
    have hbindingU : Binding C u := hs.step (.kept hu)
    have hmaximum : u.cutGeneration < maximumUInt64 := by
      refine lt_of_le_of_ne hbindingU.generation_le ?_
      rw [show u.cutGeneration = s.cutGeneration from congrArg (·.2.1) hu]
      exact hgeneration
    have hstep : CutStep C u (adoptCut (u.setDisk after) cut) :=
      .published cut rfl hmaximum (bindReference_extend hbindingU hmaximum hnow hbind)
    exact hstep.congr hu.symm rfl

theorem Finalized.cutStep (hs : Binding C s) {reason : BinaryMarketStopReason}
    {finalizedReceiveNs : Int64} (hnow : now < 2 ^ 64)
    (h : Finalized X s reason finalizedReceiveNs now result) : CutStep C s result.2 := by
  have hcompleted : ∀ u, cutState (completed u reason finalizedReceiveNs.toInt) = cutState u :=
    fun _ => rfl
  cases h with
  | failed _ hchanges => exact .kept (cutState_of_kept hchanges.kept_eq)
  | @unpublished _ u t _ hsealed _ hchanges =>
    have hu : cutState u = cutState s := cutState_of_kept (changes_seal hsealed).kept_eq
    exact .kept ((cutState_of_kept hchanges.kept_eq).trans ((hcompleted u).trans hu))
  | @published u t _ _ hsealed hpublished =>
    have hu : cutState u = cutState s := cutState_of_kept (changes_seal hsealed).kept_eq
    have hstep := hpublished.cutStep (hs.step (.kept ((hcompleted u).trans hu))) hnow
    -- The manifest is written after the publication.
    have hmanifest : cutState (sealManifest t).2 = cutState t := by
      obtain ⟨disk, he | he⟩ := sealManifest_cases t <;> rw [he] <;> rfl
    exact hstep.congr ((hcompleted u).trans hu).symm hmanifest

theorem Executed.cutStep (hs : Binding C s) {call : WriterCall} (h : Executed X s call result) :
    CutStep C s result.2 := by
  cases h with
  | failed _ hchanges => exact .kept (cutState_of_kept hchanges.kept_eq)
  | registered => exact .kept rfl
  | appended h =>
    exact .kept (h.frame cutState_of_kept (fun _ _ _ => rfl) (fun _ _ _ => rfl) (fun _ _ _ => rfl)
      fun _ _ _ => rfl)
  | gapTaken h => cases h <;> exact .kept rfl
  | progressed => exact .kept rfl
  | referenced => exact .kept rfl
  | @published now _ h => exact h.cutStep hs now.toNat_lt
  | draining => exact .kept rfl
  | @finalized _ _ now _ h => exact h.cutStep hs now.toNat_lt

/-- The cuts of a run, after the latest one of the state that it begins in, extend one another. -/
theorem extend_runWith (hs : Prepaid X s) (hbinding : Binding C s)
    (calls : List (WriterCall × List (Option ℕ))) :
    (s.publication.latest.toList ++ publishedCuts X s calls).IsChain
      fun earlier later => ReferencesExtend C earlier.referencePayload later := by
  induction calls generalizing s with
  | nil =>
    rw [publishedCuts, List.append_nil]
    cases s.publication.latest <;> simp
  | cons call calls ih =>
    obtain ⟨call, faults⟩ := call
    have hfaults : Binding C (s.withFaults faults) := ⟨hbinding.binder, hbinding.generation_le⟩
    have hexecuted := executed_exec (X := X) (hs.withFaults faults).sized.sources_le call
    have hstep : CutStep C s (execWith X s call faults).2 :=
      (hexecuted.cutStep hfaults).congr rfl rfl
    have hrest := ih (hs.execWith call faults) (hbinding.step hstep)
    rw [publishedCuts]
    generalize (execWith X s call faults).2 = t at *
    cases hstep with
    | kept h =>
      simp only [cutState, Prod.mk.injEq] at h
      rw [h.2.2] at hrest
      rw [if_pos h.2.1, List.nil_append]
      exact hrest
    | published cut h _ hextend =>
      simp only [cutState, Prod.mk.injEq] at h
      rw [if_neg (by omega), h.2.2]
      rw [h.2.2] at hrest
      cases hlatest : s.publication.latest with
      | none => exact hrest
      | some earlier =>
        rw [previousReferences, hlatest] at hextend
        exact List.isChain_cons_cons.mpr ⟨hextend, hrest⟩

/-- Reference history is immutable. In every run of a writer that binds its references, whatever its
directory operations meet, the history of each published cut extends that of the one before it, which
it begins with byte for byte if the exchange and the market determine a product; and binding does not
change the length of a payload. -/
theorem references_immutable {config : BinaryMarketWriterConfig} {root : RootEntry}
    {faults : List (Option ℕ)} {s₀ : WriterState}
    (hstart : start X config root faults = (.ok, some s₀))
    (hbinder : config.referenceVisibilityBinder = some (bindRecorderReferenceVisibility C))
    (calls : List (WriterCall × List (Option ℕ))) :
    (publishedCuts X s₀ calls).IsChain
        (fun earlier later => ReferencesExtend C earlier.referencePayload later) ∧
      (C.ProductsDetermined → (publishedCuts X s₀ calls).IsChain
        (fun earlier later => ReferencesPrefix C earlier.referencePayload later)) ∧
      ∀ (payload previous : Bytes) (generation committedMonotonicNs : UInt64),
        (bindRecorderReferenceVisibility C payload previous generation.toNat
          committedMonotonicNs.toNat).2.length = payload.length := by
  have hchain : (publishedCuts X s₀ calls).IsChain
      (fun earlier later => ReferencesExtend C earlier.referencePayload later) := by
    obtain ⟨-, budget, u, -, hchanges, rfl⟩ := changes_start hstart
    have hu : cutState u = cutState (initialState config budget ⟨∅, faults⟩) :=
      cutState_of_kept hchanges.kept_eq
    simp only [cutState, Prod.mk.injEq] at hu
    have hbinding : Binding C { u with active := true } :=
      ⟨by rw [show ({ u with active := true } : WriterState).config = config from hu.1, hbinder],
        by rw [show ({ u with active := true } : WriterState).cutGeneration = 0 from hu.2.1]
           exact Nat.zero_le _⟩
    have hchain := extend_runWith (prepaid_start hstart) hbinding calls
    rw [show ({ u with active := true } : WriterState).publication.latest = none from hu.2.2] at hchain
    exact hchain
  refine ⟨hchain, fun hC => hchain.imp fun _ _ h => h.referencesPrefix hC, ?_⟩
  intro payload previous generation committedMonotonicNs
  rcases bindRecorderReferenceVisibility_cases payload previous generation.toNat_lt
    committedMonotonicNs.toNat_lt with ⟨status, -, he⟩ | ⟨bound, _, _, _, he, hlength, -⟩
  · rw [he]
  · rw [he]
    exact hlength

def sampleDataset : ReferenceDatasetKind → UInt8
  | .instruments => 1
  | .ticker24h => 2
  | .deliveryBasis => 3
  | .centralBankRate => 4
  | .centralBankDecision => 5

theorem sampleDataset_injective : Function.Injective sampleDataset := by
  intro a b h
  cases a <;> cases b <;> first | rfl | exact absurd h (by decide)

/-- A contract whose products have the given number of reserved bytes after the exchange and the
market, and whose headers have forty-eight bytes. -/
def sampleContract (reserved : ℕ) : ReferenceContract where
  productBytes := reserved + 2
  headerBytes := 48
  exchangeRaw p := p.bytes.headD 0
  marketRaw p := p.bytes.tail.headD 0
  productFor exchange market := ⟨exchange :: market :: List.replicate reserved 0, by simp⟩
  validReferenceProductIdentity p :=
    p.bytes.headD 0 != 0 && p.bytes.tail.headD 0 != 0 && p.bytes.drop 2 == List.replicate reserved 0
  datasetRaw := sampleDataset
  referenceRecordBytes dataset := if 1 ≤ dataset ∧ dataset ≤ 5 then 64 else 0
  validCurrentReferenceHeader header := field header.bytes 0 8 != 0
  defaultHeader := Raw.ofBytes 48 []
  producerEpoch header := UInt64.ofNat (field header.bytes 0 8)
  generation header := UInt64.ofNat (field header.bytes 8 8)
  snapshotProduct header := ⟨UInt8.ofNat (field header.bytes 16 1) ::
    UInt8.ofNat (field header.bytes 17 1) :: List.replicate reserved 0, by simp⟩
  snapshotDataset header := UInt8.ofNat (field header.bytes 18 1)
  snapshotTotalRows header := field header.bytes 24 4
  snapshotRowBytes header := field header.bytes 28 4

theorem lawful_sampleContract (reserved : ℕ) : (sampleContract reserved).Lawful where
  exchangeRaw_productFor _ _ := rfl
  marketRaw_productFor _ _ := rfl
  datasetRaw_injective := sampleDataset_injective

theorem productsDetermined_sampleContract (reserved : ℕ) :
    (sampleContract reserved).ProductsDetermined := by
  rintro ⟨p, hp⟩ ⟨q, hq⟩ hvalidP hvalidQ hexchange hmarket
  match p, q with
  | a :: b :: rest, a' :: b' :: rest' =>
    simp [sampleContract] at hvalidP hvalidQ hexchange hmarket
    simp [hvalidP, hvalidQ, hexchange, hmarket]

/-- A snapshot of a dataset that was not there at the given time. -/
def missingSnapshot (product : Raw C.productBytes) (dataset : UInt8) (acquired : UInt64) :
    RecorderReferenceSnapshot C where
  product
  dataset
  acquiredMonotonicNs := acquired
  acquiredRealtimeNs := acquired
  producer := C.defaultHeader

/-- The small configuration, with references that are bound. -/
def referenceConfig (C : ReferenceContract) : BinaryMarketWriterConfig :=
  { smallConfig with
    maximumReferenceBytes := 1000
    referenceVisibilityBinder := some (bindRecorderReferenceVisibility C) }

/-- Two cuts, each with its history. -/
def referenceCalls (first second : List (RecorderReferenceSnapshot C)) :
    List (WriterCall × List (Option ℕ)) :=
  [(.setReferencePayload (encodeReferences first), []), (.publishCut 10, []),
    (.setReferencePayload (encodeReferences second), []), (.publishCut 20, [])]

/-- The state of a writer that was started with that configuration. -/
def referenceStart (C : ReferenceContract) : WriterState :=
  (start .stored (referenceConfig C) .absent []).2.getD smallStart

/-- Two cuts, the second with one more snapshot. -/
def grownCalls : List (WriterCall × List (Option ℕ)) :=
  let product := (sampleContract 2).productFor 1 1
  referenceCalls [missingSnapshot product 1 5]
    [missingSnapshot product 1 5, missingSnapshot product 2 15]

/-- Both cuts are published, and the history of the second one begins with that of the first. -/
theorem references_immutable_twice :
    (publishedCuts .stored (referenceStart (sampleContract 2)) grownCalls).map (·.generation) =
        [1, 2] ∧
      (publishedCuts .stored (referenceStart (sampleContract 2)) grownCalls).IsChain
        (fun earlier later => ReferencesPrefix (sampleContract 2) earlier.referencePayload later) := by
  have hsome : (start .stored (referenceConfig (sampleContract 2)) .absent []).2.isSome = true := by
    decide +kernel
  obtain ⟨s, hs⟩ := Option.isSome_iff_exists.mp hsome
  have hstart : start .stored (referenceConfig (sampleContract 2)) .absent [] =
      (.ok, some (referenceStart (sampleContract 2))) :=
    Prod.ext (by decide +kernel) (by rw [referenceStart, hs]; rfl)
  exact ⟨by decide +kernel,
    (references_immutable hstart rfl grownCalls).2.1 (productsDetermined_sampleContract 2)⟩

/-- A contract that does not look at the bytes of a product after its exchange and its market. -/
def looseContract : ReferenceContract :=
  { sampleContract 2 with
    validReferenceProductIdentity := fun p => p.bytes.headD 0 != 0 && p.bytes.tail.headD 0 != 0 }

/-- Two cuts of one snapshot, whose product has another third byte the second time. -/
def changedCalls : List (WriterCall × List (Option ℕ)) :=
  referenceCalls (C := looseContract) [missingSnapshot ⟨[1, 1, 0, 0], rfl⟩ 1 5]
    [missingSnapshot ⟨[1, 1, 7, 0], rfl⟩ 1 5]

/-- Both cuts are published, and the product in the second one is not that of the first. -/
theorem product_bytes_change :
    (publishedCuts .stored (referenceStart looseContract) changedCalls).map (fun cut =>
        (cut.generation, (readRecorderReferences looseContract cut.referencePayload).toOption.map
          (List.map fun x => (x.product.bytes, x.visibleFromCutGeneration)))) =
      [(1, some [([1, 1, 0, 0], 1)]), (2, some [([1, 1, 7, 0], 1)])] := by
  decide +kernel

end HftRecorder.Corpus
