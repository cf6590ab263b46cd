import HftRecorder.Capture.RingDrain

/-!
# The end of a capture

`ParserMarketCaptureClient.cpp`: `stop` asks the producer to end the capture and takes the final loss
epoch from its answer, `freezeDisconnected` waits until a producer that has gone is quiet and takes
the epoch from the header, and `appendFrozenLosses` then hands the loss ledger to the writer through
`publishProgressTo`. `ClosingClient` is the client of `ParserClient` with what these calls use in
addition. The checks for a client that was never attached are left out.

The second part is the ledger: which of its cells count a loss, what a gap for a cell says, and what
the client has collected when its loop over the ledger is at a cell. A cell that is not valid, or that
the total has no room for, is left out; the total is then the greatest one, and stays it.
-/

namespace HftRecorder.Capture

open ByteLayout Corpus ClientState

/-! ## The calls -/

/-- What `stop` gets from outside before it waits for the answer. -/
structure StopInput where
  peerDisconnected : Bool := false
  pendingControl : Bool := false
  sent : Bool := true

/-- `MarketCaptureStopped`, and whether it came and belongs to the `Stop` that was sent. -/
structure StopReply where
  received : Bool := true
  validControlReply : Bool := true
  directoryGeneration : UInt64
  finalLossEpoch : UInt64
  reservedIsZero : Bool := true

/-- Where the client is in `stop` and in `freezeDisconnected`. -/
inductive ClosingPc
  | between
  /-- `Stop` is sent. -/
  | stopping
  /-- Before it looks at a shard's publishes in flight. -/
  | freezing (shard : ℕ)
  /-- The producer is quiet, and its loss epoch is not yet loaded. -/
  | quiet
  deriving DecidableEq

/-- The client, with the parts of the header that only the end of a capture reads. -/
structure ClosingClient (π σ : Type) where
  client : ClientState π σ
  lossEpoch : UInt64 := 0
  inFlightPublishes : ℕ → UInt64 := fun _ => 0
  finalLossEpoch : UInt64 := 0
  pc : ClosingPc := .between

/-- What happens next. -/
inductive ClosingAction (π σ : Type)
  | client (action : ClientAction π σ)
  /-- The producer stores its loss epoch. -/
  | lossEpoch (epoch : UInt64)
  /-- A shard's publishes in flight change. -/
  | inFlightPublishes (shard : ℕ) (count : UInt64)
  | stop (input : StopInput)
  | stopped (reply : StopReply)
  | freezeDisconnected (peerDisconnected : Bool)
  /-- `freezeDisconnected` goes on; `expired` is its reading of the clock, if it takes one. -/
  | freeze (expired : Bool)
  | appendFrozenLosses

namespace ClosingClient

variable {π σ : Type}

def finish (c : ClosingClient π σ) (status : Status) (error : String) : ClosingClient π σ :=
  { c with client := c.client.finish status error, pc := .between }

/-- `producerDisconnected`. -/
def producerDisconnected (c : ClosingClient π σ) (peerDisconnected : Bool) : Bool :=
  peerDisconnected ||
    (!c.client.stopped && c.client.arena.consumerEpoch ≠ c.client.consumerEpoch)

/-- `stop`, until it waits for the answer. -/
def stop (c : ClosingClient π σ) (input : StopInput) : ClosingClient π σ :=
  if c.client.stopped then c.finish .ok ""
  else if c.producerDisconnected input.peerDisconnected then
    c.finish .ioError "parserd disconnected before capture Stop acknowledgement"
  else if input.pendingControl then
    c.finish .invalidArgument "subscription command is still pending before Stop"
  else if !input.sent then c.finish .ioError "parser capture Stop could not be sent"
  else { c with pc := .stopping }

/-- The rest of `stop`. -/
def stopReply (c : ClosingClient π σ) (reply : StopReply) : ClosingClient π σ :=
  if !reply.received then
    c.finish .ioError "parser capture Stopped acknowledgement timed out"
  else if !reply.validControlReply then
    c.finish .corruptData "parser capture Stopped contract mismatch"
  else if reply.directoryGeneration = 0 ∨ !reply.reservedIsZero ∨
      c.client.arena.consumerEpoch ≠ 0 then
    c.finish .corruptData "parser capture producer did not freeze cleanly"
  else
    let client :=
      { c.client with directoryGeneration := reply.directoryGeneration, stopped := true }
    { c with client, finalLossEpoch := reply.finalLossEpoch }.finish .ok ""

/-- The head of `freezeDisconnected`. -/
def freezeDisconnected (c : ClosingClient π σ) (peerDisconnected : Bool) : ClosingClient π σ :=
  if c.client.stopped then c.finish .ok ""
  else if !c.producerDisconnected peerDisconnected then
    c.finish .invalidArgument "parser capture producer is still connected"
  else { c with pc := .freezing 0 }

/-- The next operation of the loop of `freezeDisconnected`. -/
def freeze (A : ArenaShape) (c : ClosingClient π σ) (expired : Bool) :
    Option (ClosingClient π σ) :=
  let retry :=
    if expired then
      c.finish .corruptData "parser capture disconnect did not reach a quiescent boundary"
    else { c with pc := .freezing 0 }
  match c.pc with
  | .freezing shard =>
    if shard < A.shardCount.toNat then
      if c.inFlightPublishes shard ≠ 0 then some retry
      else some { c with pc := .freezing (shard + 1) }
    else if c.client.arena.consumerEpoch ≠ c.client.consumerEpoch then some { c with pc := .quiet }
    else some retry
  | .quiet =>
    some ({ c with
      client := { c.client with stopped := true }, finalLossEpoch := c.lossEpoch }.finish .ok "")
  | _ => none

/-- The call that `appendFrozenLosses` makes: the writer takes gaps and progress. -/
def frozenCall : ClientCall := .publishProgressTo ⟨false, true, true⟩

/-- `appendFrozenLosses`, until it calls `publishProgressTo`. -/
def appendFrozenLosses (A : ArenaShape) (c : ClosingClient π σ) : ClosingClient π σ :=
  if !c.client.stopped then
    c.finish .invalidArgument "parser capture loss ledger is not frozen"
  else if c.lossEpoch ≠ c.finalLossEpoch then
    c.finish .corruptData "parser capture loss epoch changed after Stop"
  else { c with client := c.client.enter A frozenCall }

def ready (c : ClosingClient π σ) : Bool :=
  match c.pc, c.client.pc with
  | .between, .idle => true
  | _, _ => false

def step (P : ParserProtocol π σ) (L : LossProtocol) (X : Platform) (A : ArenaShape)
    (c : ClosingClient π σ) : ClosingAction π σ → Option (ClosingClient π σ)
  | .client (.call call) =>
    if c.ready then some { c with client := c.client.enter A call } else none
  | .client action => (c.client.step P L X A action).map fun client => { c with client }
  | .lossEpoch lossEpoch => some { c with lossEpoch }
  | .inFlightPublishes shard count =>
    some { c with inFlightPublishes := Function.update c.inFlightPublishes shard count }
  | .stop input => if c.ready then some (c.stop input) else none
  | .stopped reply => if c.pc = .stopping then some (c.stopReply reply) else none
  | .freezeDisconnected peerDisconnected =>
    if c.ready then some (c.freezeDisconnected peerDisconnected) else none
  | .freeze expired => c.freeze A expired
  | .appendFrozenLosses => if c.ready then some (c.appendFrozenLosses A) else none

/-- A call of `appendFrozenLosses`, with what its operations get from outside. The producer is gone
or frozen, so nothing else happens. -/
def frozenActions (inputs : List ClientInput) : List (ClosingAction π σ) :=
  .appendFrozenLosses :: inputs.map fun input => .client (.client input)

end ClosingClient

/-! ## What is to be written -/

/-- The ledger has the three market channels in the order of their codes, and then the memberships. -/
structure LossProtocol.Lawful (L : LossProtocol) : Prop where
  channelCount_eq : L.channelCount = 4
  membershipIndex_eq : L.membershipIndex = 3

def lossChannel (L : LossProtocol) (index : ℕ) : BinaryMarketChannel :=
  if index % L.channelCount = L.membershipIndex then .sourceLifecycle
  else .ofCode (index % L.channelCount + 1)

/-- The arrival times in the cell are not known. -/
def arrivalUnavailable (L : LossProtocol) (cell : MarketCaptureLossCell) : Bool :=
  cell.flags &&& L.lossArrivalUnavailable ≠ 0

/-- A gap has the source and the channel of a cell, its epoch and its dropped range. -/
structure DescribesLoss (L : LossProtocol) (index : ℕ) (cell : MarketCaptureLossCell)
    (gap : BinaryMarketGap) : Prop where
  sourceId_eq : gap.sourceId = index / L.channelCount + 1
  channel_eq : gap.channel = lossChannel L index
  gapEpoch_eq : gap.gapEpoch = cell.gapEpoch.toNat
  droppedRecords_eq : gap.droppedRecords = cell.droppedRecords.toNat
  first_eq : gap.firstDroppedEventSequence = cell.firstDroppedEventSequence.toNat
  last_eq : gap.lastDroppedEventSequence = cell.lastDroppedEventSequence.toNat
  minimum_eq : gap.minimumDroppedReceiveNs =
    if arrivalUnavailable L cell then 0 else (cell.minimumDroppedReceiveRealtimeNs.toNat : ℤ)
  maximum_eq : gap.maximumDroppedReceiveNs =
    if arrivalUnavailable L cell then 0 else (cell.maximumDroppedReceiveRealtimeNs.toNat : ℤ)

section Ledger

variable {π σ : Type} {L : LossProtocol} {A : ArenaShape}

/-- The cells that the sources of a directory have in the ledger. -/
def ledgerSize (L : LossProtocol) (arena : CaptureArena π σ) : ℕ :=
  arena.directoryCount * L.channelCount

/-- The cells among the first `n` that count a loss. -/
def lossCells (arena : CaptureArena π σ) (n : ℕ) : List ℕ :=
  (List.range n).filter fun index => (arena.lossLedger index).gapEpoch ≠ 0

/-- The losses that the first `n` cells count. -/
def lossTotal (arena : CaptureArena π σ) (n : ℕ) : ℕ :=
  ((List.range n).map fun index => (arena.lossLedger index).gapEpoch.toNat).sum

/-- The cells that count a loss are valid, and a 64-bit total holds their losses. -/
structure Countable (L : LossProtocol) (A : ArenaShape) (arena : CaptureArena π σ) (n : ℕ) :
    Prop where
  valid : ∀ index ∈ lossCells arena n,
    validLossCell L A (arena.lossLedger index) = true
  total_le : lossTotal arena n ≤ maximumUInt64

/-- Every cell of the frozen directory that counts a loss was handed to the writer by the calls of the
sinks in `log`, and the writer took it. -/
def LossesWritten (L : LossProtocol) (arena : CaptureArena π σ) (log : List (SinkCall π σ)) : Prop :=
  ∀ index ∈ lossCells arena (ledgerSize L arena), ∃ gap,
    SinkCall.gap gap .ok ∈ log ∧ DescribesLoss L index (arena.lossLedger index) gap

/-- The directory is the one that the client has loaded. -/
structure DirectoryCurrent (s : ClientState π σ) : Prop where
  ne_zero : s.arena.directoryGeneration ≠ 0
  generation_eq : s.arena.directoryGeneration = s.directoryGeneration
  count_eq : s.arena.directoryCount = s.sources.length

theorem mem_lossCells {arena : CaptureArena π σ} {n index : ℕ} :
    index ∈ lossCells arena n ↔ index < n ∧ (arena.lossLedger index).gapEpoch ≠ 0 := by
  simp [lossCells]

theorem lossCells_succ (arena : CaptureArena π σ) (n : ℕ) :
    lossCells arena (n + 1) =
      lossCells arena n ++ if (arena.lossLedger n).gapEpoch ≠ 0 then [n] else [] := by
  rw [lossCells, List.range_succ, List.filter_append, List.filter_singleton, lossCells]
  by_cases h : (arena.lossLedger n).gapEpoch = 0 <;> simp [h]

theorem lossTotal_succ (arena : CaptureArena π σ) (n : ℕ) :
    lossTotal arena (n + 1) = lossTotal arena n + (arena.lossLedger n).gapEpoch.toNat := by
  simp [lossTotal, List.range_succ]

theorem lossTotal_mono (arena : CaptureArena π σ) {m n : ℕ} (h : m ≤ n) :
    lossTotal arena m ≤ lossTotal arena n := by
  induction h with
  | refl => exact le_rfl
  | step _ ih =>
    rw [lossTotal_succ]
    exact ih.trans (Nat.le_add_right _ _)

theorem field_gapOf {k w v index : ℕ} {work : ProgressWork} {cell : MarketCaptureLossCell}
    (hw : gapWidths[k]? = some w) (hv : (gapFields L work index cell)[k]? = some v) :
    field (gapOf L work index cell).bytes (gapWidths.take k).sum w =
      v % 256 ^ w := by
  have hlength : (pack gapWidths (gapFields L work index cell)).length = 80 :=
    length_pack rfl
  have hcount : (gapFields L work index cell).length = gapWidths.length := rfl
  have hfield := field_pack_append [] hcount hw hv
  rw [List.append_nil] at hfield
  rw [gapOf, Raw.bytes_ofBytes hlength, hfield]

theorem code_lossChannel (hL : L.Lawful) (index : ℕ) :
    BinaryMarketChannel.ofCode
      ((if index % L.channelCount = L.membershipIndex then BinaryMarketChannel.sourceLifecycle.code
        else index % L.channelCount + 1) % 256 ^ 1) = lossChannel L index := by
  have hlt : index % L.channelCount < 4 := by
    rw [hL.channelCount_eq]
    exact Nat.mod_lt _ (by norm_num)
  unfold lossChannel
  split
  · rfl
  · rw [Nat.mod_eq_of_lt (by omega)]

/-- The gap that the client makes of a valid cell describes it. -/
theorem describesLoss_gapOf (hL : L.Lawful) {cell : MarketCaptureLossCell} {index : ℕ}
    (hindex : index / L.channelCount + 1 < 2 ^ 32)
    (hvalid : validLossCell L A cell = true) (work : ProgressWork) :
    DescribesLoss L index cell (gapOf L work index cell) := by
  have hword : ∀ v : UInt64, v.toNat % 256 ^ 8 = v.toNat := fun v =>
    Nat.mod_eq_of_lt v.toNat_lt
  -- A valid cell has arrival times below `2 ^ 63`, so they are read back with their sign.
  have htime : ∀ v : UInt64, (arrivalUnavailable L cell = false → v.toNat < 2 ^ 63) →
      toInt64 ((if arrivalUnavailable L cell then 0 else v.toNat) % 256 ^ 8) =
        if arrivalUnavailable L cell then 0 else (v.toNat : ℤ) := by
    intro v hv
    cases hflag : arrivalUnavailable L cell with
    | true => rfl
    | false =>
      have hlt := hv hflag
      rw [if_neg Bool.false_ne_true, if_neg Bool.false_ne_true, hword, toInt64, if_pos hlt]
  simp only [validLossCell, Bool.not_eq_true', Bool.or_eq_false_iff,
    Bool.and_eq_false_iff, decide_eq_false_iff_not, not_lt] at hvalid
  obtain ⟨⟨-, hmaximum⟩, hrange⟩ := hvalid
  have hminimum : arrivalUnavailable L cell = false →
      cell.minimumDroppedReceiveRealtimeNs.toNat < 2 ^ 63 := by
    intro hflag
    rcases hrange with hrange | ⟨-, hle⟩
    · rw [← arrivalUnavailable, hflag] at hrange
      cases hrange
    · have hle := UInt64.le_iff_toNat_le.mp (UInt64.not_lt.mp hle)
      omega
  refine ⟨?_, ?_, ?_, ?_, ?_, ?_, ?_, ?_⟩
  · exact (field_gapOf (k := 0) rfl rfl).trans (Nat.mod_eq_of_lt hindex)
  · exact (congrArg BinaryMarketChannel.ofCode (field_gapOf (k := 11) rfl rfl)).trans
      (code_lossChannel hL index)
  · exact (field_gapOf (k := 3) rfl rfl).trans (hword _)
  · exact (field_gapOf (k := 4) rfl rfl).trans (hword _)
  · exact (field_gapOf (k := 5) rfl rfl).trans (hword _)
  · exact (field_gapOf (k := 6) rfl rfl).trans (hword _)
  · exact (congrArg toInt64 (field_gapOf (k := 7) rfl rfl)).trans (htime _ hminimum)
  · exact (congrArg toInt64 (field_gapOf (k := 8) rfl rfl)).trans
      (htime _ fun _ => by omega)

theorem DescribesLoss.index_unique (hL : L.Lawful) {i j : ℕ} {gap : BinaryMarketGap}
    {c d : MarketCaptureLossCell} (hi : DescribesLoss L i c gap) (hj : DescribesLoss L j d gap) :
    i = j := by
  have hsource : i / 4 = j / 4 := by
    have heq := hi.sourceId_eq.symm.trans hj.sourceId_eq
    rw [hL.channelCount_eq] at heq
    omega
  have hchannel : i % 4 = j % 4 := by
    have heq := hi.channel_eq.symm.trans hj.channel_eq
    have hcodes : ∀ a < 4, ∀ b < 4,
        (if a = 3 then BinaryMarketChannel.sourceLifecycle else .ofCode (a + 1)) =
          (if b = 3 then BinaryMarketChannel.sourceLifecycle else .ofCode (b + 1)) → a = b := by
      decide
    rw [lossChannel, lossChannel, hL.channelCount_eq, hL.membershipIndex_eq] at heq
    exact hcodes _ (Nat.mod_lt _ (by norm_num)) _ (Nat.mod_lt _ (by norm_num)) heq
  omega

/-! ## What the loop over the ledger has read -/

/-- Every cell so far was valid, and is in the total and in the gaps. -/
structure Collected (L : LossProtocol) (A : ArenaShape) (arena : CaptureArena π σ)
    (work : ProgressWork) (n : ℕ) : Prop where
  total_eq : work.total = lossTotal arena n
  gaps_eq : work.gaps = (lossCells arena n).map fun index =>
    gapOf L work index (arena.lossLedger index)
  countable : Countable L A arena n

/-- A cell that counts a loss was left out: the total is the greatest one, and there is no gap for the
cell or for a later one. -/
structure Spoiled (L : LossProtocol) (A : ArenaShape) (arena : CaptureArena π σ)
    (work : ProgressWork) (missing : ℕ) : Prop where
  total_eq : work.total = maximumUInt64
  counted : (arena.lossLedger missing).gapEpoch ≠ 0
  gaps_eq : work.gaps = (lossCells arena missing).map fun index =>
    gapOf L work index (arena.lossLedger index)
  countable : Countable L A arena missing
  uncountable : ¬ Countable L A arena (missing + 1)

/-- What the loop has read when it is at a cell. -/
def LossesRead (L : LossProtocol) (A : ArenaShape) (arena : CaptureArena π σ) (work : ProgressWork)
    (n : ℕ) : Prop :=
  Collected L A arena work n ∨ ∃ missing < n, Spoiled L A arena work missing

variable {arena : CaptureArena π σ} {work : ProgressWork} {n : ℕ}

theorem Countable.mono {m : ℕ} (h : Countable L A arena n) (hle : m ≤ n) :
    Countable L A arena m := by
  refine ⟨fun index hindex => h.valid index ?_, (lossTotal_mono arena hle).trans h.total_le⟩
  rw [mem_lossCells] at hindex ⊢
  exact ⟨hindex.1.trans_le hle, hindex.2⟩

theorem collected_zero (hgaps : work.gaps = []) (htotal : work.total = 0) :
    Collected L A arena work 0 :=
  ⟨htotal, hgaps, fun _ hindex => absurd (mem_lossCells.mp hindex).1 (Nat.not_lt_zero _),
    Nat.zero_le _⟩

theorem LossesRead.pass (h : LossesRead L A arena work n)
    (hzero : (arena.lossLedger n).gapEpoch = 0) : LossesRead L A arena work (n + 1) := by
  have hcells : lossCells arena (n + 1) = lossCells arena n := by simp [lossCells_succ, hzero]
  have htotal : lossTotal arena (n + 1) = lossTotal arena n := by simp [lossTotal_succ, hzero]
  rcases h with h | ⟨missing, hlt, h⟩
  · exact .inl ⟨by rw [htotal, h.total_eq], by rw [hcells, h.gaps_eq],
      by rw [hcells]; exact h.countable.valid, by rw [htotal]; exact h.countable.total_le⟩
  · exact .inr ⟨missing, Nat.lt_succ_of_lt hlt, h⟩

/-- A valid cell that the total has room for is collected, if none was left out before. -/
theorem LossesRead.collect (h : LossesRead L A arena work n)
    (hloss : (arena.lossLedger n).gapEpoch ≠ 0)
    (hvalid : validLossCell L A (arena.lossLedger n) = true)
    (hroom : work.total ≤ maximumUInt64 - (arena.lossLedger n).gapEpoch.toNat) :
    LossesRead L A arena
      { work with
        total := work.total + (arena.lossLedger n).gapEpoch.toNat
        gaps := work.gaps ++ [gapOf L work n (arena.lossLedger n)] } (n + 1) := by
  have hpos : 0 < (arena.lossLedger n).gapEpoch.toNat :=
    Nat.pos_of_ne_zero fun h0 => hloss (UInt64.toNat_inj.mp h0)
  have hle : (arena.lossLedger n).gapEpoch.toNat ≤ maximumUInt64 := by
    have := (arena.lossLedger n).gapEpoch.toNat_lt
    rw [maximumUInt64]
    omega
  rcases h with h | ⟨missing, -, h⟩
  · have hcells : lossCells arena (n + 1) = lossCells arena n ++ [n] := by
      rw [lossCells_succ, if_pos hloss]
    refine .inl ⟨?_, ?_, ?_, ?_⟩
    · rw [lossTotal_succ, h.total_eq]
    · rw [hcells, List.map_append, h.gaps_eq]
      rfl
    · intro index hindex
      rw [hcells, List.mem_append, List.mem_singleton] at hindex
      rcases hindex with hindex | rfl
      · exact h.countable.valid index hindex
      · exact hvalid
    · rw [lossTotal_succ, ← h.total_eq]
      omega
  · -- The greatest total has no room for another loss.
    rw [h.total_eq] at hroom
    omega

theorem LossesRead.spoil (h : LossesRead L A arena work n)
    (hloss : (arena.lossLedger n).gapEpoch ≠ 0)
    (hbad : ¬ (validLossCell L A (arena.lossLedger n) = true ∧
      work.total ≤ maximumUInt64 - (arena.lossLedger n).gapEpoch.toNat)) :
    ∃ missing ≤ n, Spoiled L A arena
      { work with progressAvailable := false, total := maximumUInt64 } missing := by
  rcases h with h | ⟨missing, hlt, h⟩
  · refine ⟨n, le_rfl, rfl, hloss, h.gaps_eq, h.countable, fun hcountable => hbad ⟨?_, ?_⟩⟩
    · exact hcountable.valid n (mem_lossCells.mpr ⟨Nat.lt_succ_self n, hloss⟩)
    · have htotal := hcountable.total_le
      rw [lossTotal_succ, ← h.total_eq] at htotal
      omega
  · exact ⟨missing, hlt.le, rfl, h.counted, h.gaps_eq, h.countable, h.uncountable⟩

end Ledger

end HftRecorder.Capture
