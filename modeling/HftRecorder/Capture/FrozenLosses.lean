import HftRecorder.Capture.Closing

/-!
# Frozen losses

`appendFrozenLosses` calls `publishProgressTo`, the routine of the running capture, which returns `Ok`
without a gap whenever the directory is not the one that the client has loaded: while the capture runs
there is a next attempt. After its end there is none, so a directory that was published after the last
load makes `appendFrozenLosses` return `Ok` and leave every loss out. `stop` takes over the generation
of the final directory but not its sources, and `freezeDisconnected` neither.

`Importing` is what is known at each operation of the call. The call has only so many operations left
(`operationsLeft`), so it returns, and `ImportReturned` says how.
-/

namespace HftRecorder.Capture

open ByteLayout Corpus ClientState

/-! ## The call -/

section Call

variable {π σ : Type} {P : ParserProtocol π σ} {L : LossProtocol} {X : Platform} {A : ArenaShape}
  {begun : Bool} {f s t : ClientState π σ}

/-- The client remembers what it did when it was called, and the producer is frozen. -/
structure FrozenClient (f s : ClientState π σ) : Prop where
  arena_eq : s.arena = f.arena
  sources_eq : s.sources = f.sources
  generation_eq : s.directoryGeneration = f.directoryGeneration
  stopped : s.stopped = true

/-- The client has taken a snapshot of the header and of the directory. -/
structure Snapshot (begun : Bool) (f : ClientState π σ) (work : ProgressWork) : Prop where
  flags_eq : f.arena.lossSnapshotFlags = 0
  begun_eq : begun = true
  current : DirectoryCurrent f
  revision_eq : work.lossRevision = f.arena.lossRevision
  directory_eq : work.directory = f.arena.directoryGeneration
  count_eq : work.count = f.arena.directoryCount

/-- The whole ledger is read, and the total is the one of the header. -/
structure Balanced (L : LossProtocol) (A : ArenaShape) (begun : Bool) (f : ClientState π σ)
    (work : ProgressWork) : Prop where
  snapshot : Snapshot begun f work
  read : LossesRead L A f.arena work (ledgerSize L f.arena)
  total_eq : work.total = work.lossRevision.toNat

/-- The calls of the writer for gaps that it takes. -/
def gapCalls (gaps : List BinaryMarketGap) : List (SinkCall π σ) := gaps.map fun gap => .gap gap .ok

/-- What is known where the client is, of the call that began in `f`. -/
def ImportStage (L : LossProtocol) (A : ArenaShape) (begun : Bool) (f : ClientState π σ)
    (log : List (SinkCall π σ)) : ProgressPc → Prop
  | .lossFlags => log = f.log
  | .lossBegin => log = f.log ∧ f.arena.lossSnapshotFlags = 0
  | .generation revision =>
    log = f.log ∧ f.arena.lossSnapshotFlags = 0 ∧ begun = true ∧ revision = f.arena.lossRevision
  | .count revision directory =>
    log = f.log ∧ f.arena.lossSnapshotFlags = 0 ∧ begun = true ∧ revision = f.arena.lossRevision ∧
      directory = f.arena.directoryGeneration
  | .cells work _ | .clock work =>
    log = f.log ∧ Snapshot begun f work ∧ work.gaps = [] ∧ work.total = 0
  | .losses work n =>
    log = f.log ∧ Snapshot begun f work ∧ n ≤ ledgerSize L f.arena ∧ LossesRead L A f.arena work n
  | .validate work | .validateGeneration work | .validateCount work | .validateEpoch work =>
    log = f.log ∧ Snapshot begun f work ∧ LossesRead L A f.arena work (ledgerSize L f.arena)
  | .gaps work remaining =>
    Balanced L A begun f work ∧
      ∃ written, work.gaps = written ++ remaining ∧ log = f.log ++ gapCalls written
  | .forward _ => ∃ work, Balanced L A begun f work ∧ log = f.log ++ gapCalls work.gaps

/-- How the call returns. -/
inductive ImportReturned (L : LossProtocol) (A : ArenaShape) (begun : Bool) (f : ClientState π σ)
    (status : Status) (log : List (SinkCall π σ)) : Prop
  | refused (hstatus : status ≠ .ok)
  | deferred (hflags : f.arena.lossSnapshotFlags = 0) (hlog : log = f.log)
      (hbehind : ¬ (begun = true ∧ DirectoryCurrent f))
  | imported (work : ProgressWork) (hbalanced : Balanced L A begun f work)
      (rest : List (SinkCall π σ)) (hrest : ∀ gap result, SinkCall.gap gap result ∉ rest)
      (hlog : log = f.log ++ gapCalls work.gaps ++ rest)

/-- What is known of the client in the call that began in `f`, and when it has returned. -/
def Importing (L : LossProtocol) (A : ArenaShape) (begun : Bool) (f s : ClientState π σ) : Prop :=
  FrozenClient f s ∧
    match s.pc with
    | .publishing call pc => call = ClosingClient.frozenCall ∧ ImportStage L A begun f s.log pc
    | .idle => ImportReturned L A begun f s.status s.log
    | _ => False

theorem FrozenClient.moved {pc : ClientPc π σ} (h : FrozenClient f s) :
    FrozenClient f { s with pc } :=
  { h with }

variable {pc : ProgressPc}

theorem importing_moved (h : FrozenClient f s) (hstage : ImportStage L A begun f s.log pc) :
    Importing L A begun f { s with pc := .publishing ClosingClient.frozenCall pc } :=
  ⟨h.moved, rfl, hstage⟩

theorem importing_finish {status : Status} {error : String} (h : FrozenClient f s)
    (hreturned : ImportReturned L A begun f status s.log) :
    Importing L A begun f (s.finish status error) :=
  ⟨{ h with }, hreturned⟩

variable {input : ClientInput} {work : ProgressWork}

/-- One turn of the loop over the ledger. -/
theorem importing_lossStep {n : ℕ} (h : FrozenClient f s)
    (hstage : ImportStage L A begun f s.log (.losses work n)) :
    Importing L A begun f (s.lossStep L A ClosingClient.frozenCall work n input) := by
  obtain ⟨hlog, hsnapshot, hn, hread⟩ := hstage
  have hsize : s.sources.length * L.channelCount = ledgerSize L f.arena := by
    rw [ledgerSize, h.sources_eq, hsnapshot.current.count_eq]
  have hcell : s.arena.lossLedger n = f.arena.lossLedger n := by rw [h.arena_eq]
  unfold lossStep
  rw [hsize]
  split
  · rename_i hlt
    dsimp only
    rw [hcell]
    split
    · rename_i hzero
      refine importing_moved h ?_
      exact ⟨hlog, hsnapshot, hlt, hread.pass hzero⟩
    · rename_i hloss
      split
      · rename_i hbad
        obtain ⟨missing, hmissing, hspoiled⟩ := hread.spoil hloss (by
          rintro ⟨hvalid, hroom⟩
          rcases hbad with hbad | hbad
          · simp [hvalid] at hbad
          · omega)
        -- The rest of the source is skipped, which does not lead out of the ledger.
        have hnext : (n / L.channelCount + 1) * L.channelCount ≤ ledgerSize L f.arena := by
          have hsource : n / L.channelCount < f.arena.directoryCount :=
            Nat.div_lt_of_lt_mul (by rwa [Nat.mul_comm])
          exact Nat.mul_le_mul_right _ hsource
        have hafter : n < (n / L.channelCount + 1) * L.channelCount := by
          have hpos : 0 < L.channelCount := by
            rcases Nat.eq_zero_or_pos L.channelCount with h0 | hpos
            · rw [ledgerSize, h0] at hlt
              omega
            · exact hpos
          rw [Nat.mul_comm]
          exact Nat.lt_mul_div_succ n hpos
        refine importing_moved h ?_
        exact ⟨hlog, { hsnapshot with }, hnext, .inr ⟨missing, by omega, hspoiled⟩⟩
      · rename_i hgood
        have hvalid : validLossCell L A (f.arena.lossLedger n) = true := by
          cases hv : validLossCell L A (f.arena.lossLedger n) with
          | true => rfl
          | false => exact absurd (.inl (by simp [hv])) hgood
        split
        · exact importing_finish h (.refused (by decide))
        · refine importing_moved h ?_
          exact ⟨hlog, { hsnapshot with }, hlt,
            hread.collect hloss hvalid (Nat.le_of_not_lt fun hlt => hgood (.inr hlt))⟩
  · rename_i hend
    have heq : n = ledgerSize L f.arena := le_antisymm hn (Nat.le_of_not_lt hend)
    refine importing_moved h ?_
    exact ⟨hlog, hsnapshot, heq ▸ hread⟩

theorem readCell_eq_some {work' : ProgressWork} {shard : ℕ} {cellRead : Bool}
    (h : s.readCell work shard cellRead = some work') :
    Snapshot begun f work → Snapshot begun f work' ∧ work'.gaps = work.gaps ∧
      work'.total = work.total := by
  intro hsnapshot
  unfold readCell at h
  dsimp only at h
  split at h
  · cases h
  · cases h
    exact ⟨{ hsnapshot with }, rfl, rfl⟩

theorem gapCalls_snoc (gaps : List BinaryMarketGap) (gap : BinaryMarketGap) :
    (gapCalls (gaps ++ [gap]) : List (SinkCall π σ)) = gapCalls gaps ++ [.gap gap .ok] :=
  List.map_append

/-- A loss goes to the writer, or all are there and the progress follows. -/
theorem importing_gaps {remaining : List BinaryMarketGap} (h : FrozenClient f s)
    (hstage : ImportStage L A begun f s.log (.gaps work remaining)) :
    Importing L A begun f
      (s.progressStep L A ClosingClient.frozenCall (.gaps work remaining) input) := by
  obtain ⟨hbalanced, written, hgaps, hlog⟩ := hstage
  cases remaining with
  | nil =>
    have hdone : ImportReturned L A begun f .ok s.log :=
      .imported work hbalanced [] (by simp) (by rw [hgaps, List.append_nil, List.append_nil, hlog])
    simp only [progressStep]
    grind [Importing, FrozenClient, ImportStage, finish]
  | cons gap remaining =>
    have hnext : work.gaps = (written ++ [gap]) ++ remaining := by rw [hgaps, List.append_assoc]; rfl
    simp only [progressStep]
    split
    · rename_i hok
      refine ⟨{ h with }, rfl, hbalanced, written ++ [gap], hnext, ?_⟩
      rw [gapCalls_snoc, ← List.append_assoc, ← hlog, ← hok]
      rfl
    · rename_i hrefused
      exact ⟨{ h with }, .refused hrefused⟩

/-- Every operation of the call keeps what is known, if it finds a valid snapshot. -/
theorem importing_progressStep (h : FrozenClient f s) (hbegun : input.snapshotBegun = begun)
    (hvalid : input.snapshotValid = true) (hstage : ImportStage L A begun f s.log pc) :
    Importing L A begun f (s.progressStep L A ClosingClient.frozenCall pc input) := by
  have ⟨harena, hsources, hgeneration, hstopped⟩ := h
  cases pc with
  | losses work n => exact importing_lossStep h hstage
  | gaps work remaining => exact importing_gaps h hstage
  | cells work shard =>
    -- A cell that is read changes what is known of the shards alone.
    have hcell (work') := @readCell_eq_some π σ begun f s work work' shard input.cellRead
    simp only [ImportStage] at hstage
    simp only [progressStep]
    grind [Importing, FrozenClient, ImportStage, Snapshot]
  | clock work =>
    obtain ⟨hlog, hsnapshot, hgaps, htotal⟩ := hstage
    simp only [progressStep]
    split
    · exact importing_finish h (.refused (by decide))
    · exact importing_moved h
        ⟨hlog, { hsnapshot with }, Nat.zero_le _, .inl (collected_zero hgaps htotal)⟩
  | validateEpoch work =>
    obtain ⟨hlog, hsnapshot, hread⟩ := hstage
    have hbegin : s.log = f.log ++ gapCalls [] := by rw [hlog]; exact (List.append_nil _).symm
    simp only [progressStep]
    grind [Importing, FrozenClient, ImportStage, ImportReturned, finish, Balanced]
  | forward progress =>
    obtain ⟨work, hbalanced, hlog⟩ := hstage
    refine ⟨{ h with }, .imported work hbalanced [.progress progress input.result] (by simp) ?_⟩
    show s.log ++ [SinkCall.progress progress input.result] = _
    rw [hlog]
  | _ =>
    -- The tests of the header and of the directory, which are those of the frozen arena.
    simp only [ImportStage] at hstage
    simp only [progressStep]
    grind [Importing, FrozenClient, ImportStage, ImportReturned, finish, Snapshot, DirectoryCurrent]

/-- A bound on the operations that the call has left. -/
def operationsLeft (L : LossProtocol) (A : ArenaShape) (sources : ℕ) : ClientPc π σ → ℕ
  | .publishing _ pc =>
    let shards := A.shardCount.toNat
    let cells := sources * L.channelCount
    match pc with
    | .lossFlags => shards + 2 * cells + 14
    | .lossBegin => shards + 2 * cells + 13
    | .generation _ => shards + 2 * cells + 12
    | .count _ _ => shards + 2 * cells + 11
    | .cells work shard => work.gaps.length + (shards - shard) + 2 * cells + 10
    | .clock work => work.gaps.length + 2 * cells + 9
    | .losses work n => work.gaps.length + 2 * (cells - n) + 8
    | .validate work => work.gaps.length + 7
    | .validateGeneration work => work.gaps.length + 6
    | .validateCount work => work.gaps.length + 5
    | .validateEpoch work => work.gaps.length + 4
    | .gaps _ remaining => remaining.length + 2
    | .forward _ => 1
  | _ => 0

theorem lt_next_source {n : ℕ} {sources : ℕ} (h : n < sources * L.channelCount) :
    n < (n / L.channelCount + 1) * L.channelCount := by
  rw [Nat.mul_comm]
  exact Nat.lt_mul_div_succ n (Nat.pos_of_mul_pos_left ((Nat.zero_le n).trans_lt h))

/-- Every operation of `publishProgressTo` is one less, whatever it gets from outside. -/
theorem operationsLeft_progressStep (s : ClientState π σ) (call : ClientCall) (pc : ProgressPc)
    (input : ClientInput) :
    operationsLeft L A s.sources.length (s.progressStep L A call pc input).pc <
      operationsLeft L A s.sources.length (.publishing call pc : ClientPc π σ) := by
  cases pc with
  | losses work n =>
    have hafter (hlt : n < s.sources.length * L.channelCount) := lt_next_source hlt
    simp only [progressStep, lossStep]
    grind [operationsLeft, finish]
  | gaps work remaining =>
    cases remaining <;> simp only [progressStep] <;>
      grind [operationsLeft, finish]
  | _ =>
    simp only [progressStep]
    grind [operationsLeft, finish, readCell]

/-- A frozen ledger that the call returns `Ok` for and does not write, if nothing outside fails: it
does not get to the ledger, or the greatest total, which stands for a cell that it leaves out, is also
the one of the header. -/
structure Unimported (L : LossProtocol) (A : ArenaShape) (begun : Bool) (f : ClientState π σ) :
    Prop where
  flags_eq : f.arena.lossSnapshotFlags = 0
  uncountable : begun = true → DirectoryCurrent f →
    f.arena.lossRevision.toNat = maximumUInt64 ∧ ¬ Countable L A f.arena (ledgerSize L f.arena)

theorem LossesRead.spoiled {arena : CaptureArena π σ} {n : ℕ} (h : LossesRead L A arena work n)
    (hcountable : ¬ Countable L A arena n) : ∃ missing < n, Spoiled L A arena work missing := by
  rcases h with h | h
  · exact absurd h.countable hcountable
  · exact h

/-- Nothing outside fails, so the call goes on or returns `Ok`. -/
theorem status_progressStep (h : FrozenClient f s) (hf : Unimported L A begun f)
    (hstage : ImportStage L A begun f s.log pc) :
    (s.progressStep L A ClosingClient.frozenCall pc { snapshotBegun := begun }).pc = .idle →
      (s.progressStep L A ClosingClient.frozenCall pc { snapshotBegun := begun }).status = .ok := by
  have harena := h.arena_eq
  have hflags := hf.flags_eq
  cases pc with
  | losses work n =>
    simp only [progressStep, lossStep]
    grind
  | validateEpoch work =>
    obtain ⟨-, hsnapshot, hread⟩ := hstage
    -- The cell that was left out made the total the greatest one, which is the header's.
    obtain ⟨hrevision, hcountable⟩ := hf.uncountable hsnapshot.begun_eq hsnapshot.current
    obtain ⟨_, -, hspoiled⟩ := hread.spoiled hcountable
    have htotal : work.total = work.lossRevision.toNat := by
      rw [hspoiled.total_eq, hsnapshot.revision_eq, hrevision]
    simp only [progressStep]
    grind [finish, ClosingClient.frozenCall, ClientCall.sinks]
  | gaps work remaining =>
    cases remaining <;> simp only [progressStep] <;> grind [finish]
  | _ =>
    simp only [progressStep]
    grind [finish]

theorem importing_clientStep (h : Importing L A begun f s) (hbegun : input.snapshotBegun = begun)
    (hvalid : input.snapshotValid = true) (ht : s.clientStep P L X A input = some t) :
    Importing L A begun f t := by
  obtain ⟨hfrozen, hstage⟩ := h
  unfold clientStep at ht
  split at ht
  · cases ht
  · simp_all
  · simp_all
  · rename_i hpc
    rw [hpc] at hstage
    obtain ⟨rfl, hstage⟩ := hstage
    cases ht
    exact importing_progressStep hfrozen hbegun hvalid hstage

/-- A ledger that is unimported makes the call return `Ok`, if nothing outside fails. -/
theorem exists_run_of_unimported (hs : Importing L A begun f s) (hf : Unimported L A begun f)
    (hok : s.pc = .idle → s.status = .ok) :
    ∃ n t, Machine.run (clientStep P L X A) s
        (List.replicate n { snapshotBegun := begun }) = some t ∧
      (Importing L A begun f t ∧ (t.pc = .idle → t.status = .ok)) ∧ t.pc = .idle := by
  refine Machine.exists_run_replicate (fun s => operationsLeft L A s.sources.length s.pc) _
    (fun s hs hbusy => ?_) s ⟨hs, hok⟩
  obtain ⟨⟨hfrozen, hstage⟩, -⟩ := hs
  cases hpc : s.pc with
  | idle => exact absurd hpc hbusy
  | loading => rw [hpc] at hstage; exact hstage.elim
  | draining => rw [hpc] at hstage; exact hstage.elim
  | publishing call pc =>
    rw [hpc] at hstage
    obtain ⟨rfl, hstage⟩ := hstage
    have hnext : Importing L A begun f (s.progressStep L A ClosingClient.frozenCall pc
        { snapshotBegun := begun }) := importing_progressStep hfrozen rfl rfl hstage
    refine ⟨_, ?_, ⟨hnext, status_progressStep hfrozen hf hstage⟩, ?_⟩
    · rw [clientStep, hpc]
    · rw [hnext.1.sources_eq, ← hfrozen.sources_eq]
      exact operationsLeft_progressStep ..

end Call

/-! ## The frozen losses -/

section FrozenLosses

variable {π σ : Type} (P : ParserProtocol π σ) (L : LossProtocol) (X : Platform) (A : ArenaShape)

/-- What `appendFrozenLosses` needs to write the losses of every ledger that it returns `Ok` for: it
refuses the ledger before it reads it, or there is nothing to write, or it gets to the ledger and the
header's total is not the one that stands for a cell left out. -/
def Importable (begun : Bool) (c : ClosingClient π σ) : Prop :=
  c.lossEpoch ≠ c.finalLossEpoch ∨ c.client.arena.lossSnapshotFlags ≠ 0 ∨
    lossCells c.client.arena (ledgerSize L c.client.arena) = [] ∨
    (begun = true ∧ DirectoryCurrent c.client ∧
      (c.client.arena.lossRevision.toNat ≠ maximumUInt64 ∨
        Countable L A c.client.arena (ledgerSize L c.client.arena)))

variable {P L X A} {begun : Bool} {c d : ClosingClient π σ}

theorem importing_run {f : ClientState π σ} {inputs : List ClientInput}
    (hinputs : ∀ input ∈ inputs, input.snapshotBegun = begun ∧ input.snapshotValid = true)
    (hc : Importing L A begun f c.client) (h : Machine.run (ClosingClient.step P L X A) c
      (inputs.map fun input => .client (.client input)) = some d) :
    Importing L A begun f d.client := by
  induction inputs generalizing c with
  | nil =>
    cases h
    exact hc
  | cons input inputs ih =>
    rw [List.map_cons, Machine.run] at h
    split at h
    · cases h
    · rename_i e he
      obtain ⟨t, ht, rfl⟩ := Option.map_eq_some_iff.mp he
      obtain ⟨hbegun, hvalid⟩ := hinputs input List.mem_cons_self
      have hnext : Importing L A begun f t :=
        importing_clientStep (P := P) (X := X) hc hbegun hvalid ht
      exact ih (c := { c with client := t }) (fun i hi => hinputs i (List.mem_cons_of_mem _ hi))
        hnext h

theorem run_client {t : ClientState π σ} {inputs : List ClientInput}
    (h : Machine.run (clientStep P L X A) c.client inputs = some t) :
    Machine.run (ClosingClient.step P L X A) c (inputs.map fun input => .client (.client input)) =
      some { c with client := t } := by
  induction inputs generalizing c with
  | nil =>
    cases h
    rfl
  | cons input inputs ih =>
    rw [Machine.run] at h
    split at h
    · cases h
    · rename_i u hu
      have hstep : ClosingClient.step P L X A c (.client (.client input)) =
          some { c with client := u } :=
        Option.map_eq_some_iff.mpr ⟨u, hu, rfl⟩
      rw [List.map_cons, Machine.run, hstep]
      exact ih (c := { c with client := u }) h

theorem importing_appendFrozenLosses (hstopped : c.client.stopped = true)
    (hepoch : c.lossEpoch = c.finalLossEpoch) :
    Importing L A begun c.client (c.appendFrozenLosses A).client := by
  rw [ClosingClient.appendFrozenLosses, hstopped, if_neg (by simp), if_neg (not_not.mpr hepoch)]
  exact ⟨⟨rfl, rfl, rfl, hstopped⟩, rfl, rfl⟩

theorem gap_mem_imported {gap : BinaryMarketGap} {result : Status} {work : ProgressWork}
    {rest : List (SinkCall π σ)} (hrest : ∀ gap result, SinkCall.gap gap result ∉ rest) :
    SinkCall.gap gap result ∈ gapCalls work.gaps ++ rest ↔ gap ∈ work.gaps ∧ result = .ok := by
  rw [List.mem_append, or_iff_left (hrest gap result), gapCalls, List.mem_map]
  constructor
  · rintro ⟨g, hg, heq⟩
    cases heq
    exact ⟨hg, rfl⟩
  · rintro ⟨hg, rfl⟩
    exact ⟨gap, hg, rfl⟩

theorem sourceId_lt {arena : CaptureArena π σ} {index : ℕ} (hcount : arena.directoryCount < 2 ^ 32)
    (hindex : index < ledgerSize L arena) : index / L.channelCount + 1 < 2 ^ 32 := by
  have hsource : index / L.channelCount < arena.directoryCount :=
    Nat.div_lt_of_lt_mul (by rw [Nat.mul_comm]; exact hindex)
  omega

/-- A call that returns `Ok` has written the losses, where the ledger can be imported. -/
theorem written_of_returned {log : List (SinkCall π σ)} (hL : L.Lawful)
    (hcount : c.client.arena.directoryCount < 2 ^ 32) (hc : Importable L A begun c)
    (hepoch : c.lossEpoch = c.finalLossEpoch) (h : ImportReturned L A begun c.client .ok log) :
    LossesWritten L c.client.arena (log.drop c.client.log.length) := by
  have hnothing : lossCells c.client.arena (ledgerSize L c.client.arena) = [] →
      LossesWritten L c.client.arena (log.drop c.client.log.length) := by
    intro hnone index hindex
    rw [hnone] at hindex
    cases hindex
  cases h with
  | refused hstatus => exact absurd rfl hstatus
  | deferred hflags hlog hbehind =>
    rcases hc with hne | hne | hnone | ⟨hbegun, hcurrent, -⟩
    · exact absurd hepoch hne
    · exact absurd hflags hne
    · exact hnothing hnone
    · exact absurd ⟨hbegun, hcurrent⟩ hbehind
  | imported work hbalanced rest hrest hlog =>
    rcases hc with hne | hne | hnone | ⟨hbegun, hcurrent, hcountable⟩
    · exact absurd hepoch hne
    · exact absurd hbalanced.snapshot.flags_eq hne
    · exact hnothing hnone
    · rcases hbalanced.read with hcollected | ⟨missing, hlt, hspoiled⟩
      · intro index hindex
        rw [hlog, List.append_assoc, List.drop_left]
        refine ⟨_, (gap_mem_imported hrest).mpr ⟨?_, rfl⟩, describesLoss_gapOf hL
          (sourceId_lt hcount (mem_lossCells.mp hindex).1) (hcollected.countable.valid index hindex)
          work⟩
        rw [hcollected.gaps_eq]
        exact List.mem_map_of_mem hindex
      · -- A cell left out makes the total the greatest one.
        have hrevision : c.client.arena.lossRevision.toNat = maximumUInt64 := by
          rw [← hbalanced.snapshot.revision_eq, ← hbalanced.total_eq, hspoiled.total_eq]
        rcases hcountable with hne | hcountable
        · exact absurd hrevision hne
        · exact absurd (hcountable.mono (Nat.succ_le_of_lt hlt)) hspoiled.uncountable

/-- A call that returns for a ledger that is unimported has left out a loss. -/
theorem not_written_of_unimported {log : List (SinkCall π σ)} (hL : L.Lawful)
    (hcount : c.client.arena.directoryCount < 2 ^ 32)
    (hsome : lossCells c.client.arena (ledgerSize L c.client.arena) ≠ [])
    (hf : Unimported L A begun c.client) (h : ImportReturned L A begun c.client .ok log) :
    ¬ LossesWritten L c.client.arena (log.drop c.client.log.length) := by
  intro hwritten
  cases h with
  | refused hstatus => exact absurd rfl hstatus
  | deferred hflags hlog hbehind =>
    obtain ⟨index, hindex⟩ := List.exists_mem_of_ne_nil _ hsome
    obtain ⟨gap, hgap, -⟩ := hwritten index hindex
    rw [hlog, List.drop_length] at hgap
    cases hgap
  | imported work hbalanced rest hrest hlog =>
    have hsnapshot := hbalanced.snapshot
    obtain ⟨-, hcountable⟩ := hf.uncountable hsnapshot.begun_eq hsnapshot.current
    obtain ⟨missing, hlt, hspoiled⟩ := hbalanced.read.spoiled hcountable
    obtain ⟨gap, hgap, hdescribes⟩ := hwritten missing (mem_lossCells.mpr ⟨hlt, hspoiled.counted⟩)
    rw [hlog, List.append_assoc, List.drop_left, gap_mem_imported hrest, hspoiled.gaps_eq] at hgap
    obtain ⟨index, hindex, rfl⟩ := List.mem_map.mp hgap.1
    -- The gap is that of an earlier cell, and a gap tells its cell.
    have hbefore : index < missing := (mem_lossCells.mp hindex).1
    have hother := describesLoss_gapOf hL (sourceId_lt hcount (hbefore.trans hlt))
      (hspoiled.countable.valid index hindex) work
    exact absurd (hother.index_unique hL hdescribes) hbefore.ne

/-- `appendFrozenLosses` writes the losses of every frozen ledger that it returns `Ok` for exactly if
it refuses the ledger, or there are none, or the frozen directory is the one that the client has
loaded and no cell is left out. What `beginMarketCaptureLossSnapshot` says of the frozen header is
`begun`, and a snapshot of it is valid. -/
theorem frozen_losses_written_iff (hL : L.Lawful) (begun : Bool) (c : ClosingClient π σ)
    (hready : c.ready = true) (hstopped : c.client.stopped = true)
    (hcount : c.client.arena.directoryCount < 2 ^ 32) :
    (∀ inputs d, (∀ input ∈ inputs, input.snapshotBegun = begun ∧ input.snapshotValid = true) →
      Machine.run (ClosingClient.step P L X A) c (ClosingClient.frozenActions inputs) = some d →
      d.client.pc = .idle → d.client.status = .ok →
      LossesWritten L c.client.arena (d.client.log.drop c.client.log.length)) ↔
    Importable L A begun c := by
  have hcall : ∀ actions, Machine.run (ClosingClient.step P L X A) c
      (.appendFrozenLosses :: actions) =
        Machine.run (ClosingClient.step P L X A) (c.appendFrozenLosses A) actions := by
    intro actions
    rw [Machine.run, ClosingClient.step, if_pos hready]
  constructor
  · intro hwritten
    by_contra hnot
    unfold Importable at hnot
    push Not at hnot
    obtain ⟨hepoch, hflags, hsome, hbehind⟩ := hnot
    have hf : Unimported L A begun c.client := ⟨hflags, hbehind⟩
    have hstart : Importing L A begun c.client (c.appendFrozenLosses A).client :=
      importing_appendFrozenLosses hstopped hepoch
    have hbusy : (c.appendFrozenLosses A).client.pc ≠ .idle := by
      rw [ClosingClient.appendFrozenLosses, hstopped, if_neg (by simp), if_neg (not_not.mpr hepoch)]
      exact fun hidle => by cases hidle
    obtain ⟨n, t, hrun, ⟨⟨hfrozen, hreturned⟩, hok⟩, hidle⟩ :=
      exists_run_of_unimported (P := P) (X := X) hstart hf fun hidle => absurd hidle hbusy
    have hok := hok hidle
    rw [hidle, hok] at hreturned
    refine not_written_of_unimported hL hcount hsome hf hreturned
      (hwritten (List.replicate n { snapshotBegun := begun })
        { c.appendFrozenLosses A with client := t } ?_ ?_ hidle hok)
    · intro input hinput
      rw [List.eq_of_mem_replicate hinput]
      exact ⟨rfl, rfl⟩
    · rw [ClosingClient.frozenActions, hcall]
      exact run_client hrun
  · intro hc inputs d hinputs hrun hidle hok
    rw [ClosingClient.frozenActions, hcall] at hrun
    by_cases hepoch : c.lossEpoch = c.finalLossEpoch
    · obtain ⟨-, hreturned⟩ := importing_run hinputs
        (importing_appendFrozenLosses hstopped hepoch) hrun
      rw [hidle, hok] at hreturned
      exact written_of_returned hL hcount hc hepoch hreturned
    · -- The call has refused the ledger, and a client between calls has no next operation.
      have hrefused : c.appendFrozenLosses A =
          c.finish .corruptData "parser capture loss epoch changed after Stop" := by
        rw [ClosingClient.appendFrozenLosses, hstopped, if_neg (by simp), if_pos hepoch]
      rw [hrefused] at hrun
      cases inputs with
      | nil =>
        cases hrun
        cases hok
      | cons input inputs => cases hrun

end FrozenLosses

/-! ## Two histories

The client loads a directory of one source. Then the producer loses a book ticker, in one history of
that source, in the other of a second source that it has just published, and the capture is stopped. -/

def smallLoss : MarketCaptureLossCell := ⟨1, 1, 1, 0, 7, 7, 5, 5, 0⟩

/-- A capture that loads the directory and is stopped after the given stores of the producer, the last
directory having the given generation. -/
def stoppedAfter (stores : List (ArenaStore BinaryMarketSource)) (generation : UInt64) :
    List (ClosingAction SamplePayload BinaryMarketSource) :=
  .client (.call .loadSourceDirectory) :: (goOn 6).map .client ++
    stores.map (fun store => .client (.arena store)) ++
    [.lossEpoch 1, .stop {}, .client (.arena (.consumerEpoch 0)),
      .stopped { directoryGeneration := generation, finalLossEpoch := 1 }]

/-- The loss is one of the source that the client has loaded. -/
def lossOfLoaded : List (ClosingAction SamplePayload BinaryMarketSource) :=
  stoppedAfter [.lossLedger 0 smallLoss, .lossRevision 1] 1

def addedSource : BinaryMarketSource := ⟨smallSource.toRaw.set 0 4 2 (by norm_num)⟩

/-- The loss is one of a source that the client has not loaded. -/
def lossOfAdded : List (ClosingAction SamplePayload BinaryMarketSource) :=
  stoppedAfter [.sourceDirectory 1 addedSource, .directoryCount 2, .directoryGeneration 2,
    .lossLedger 4 smallLoss, .lossRevision 1] 2

/-- A client that has attached to the small arena. -/
def smallClosing : ClosingClient SamplePayload BinaryMarketSource :=
  { client := .attached smallShape smallArena (fun _ _ => smallTicker 0 0) 1 }

theorem lawful_smallLosses : smallLosses.Lawful := ⟨rfl, rfl⟩

theorem lossOfLoaded_run :
    (Machine.run (ClosingClient.step smallProtocol smallLosses .stored smallShape) smallClosing
      lossOfLoaded).map (fun c => decide (c.ready = true ∧ c.client.stopped = true ∧
        c.client.arena.directoryCount = 1 ∧ c.client.arena.directoryGeneration = 1 ∧
        c.client.directoryGeneration = 1 ∧ c.client.sources.length = 1 ∧
        c.client.arena.lossRevision = 1 ∧
        lossCells c.client.arena (ledgerSize smallLosses c.client.arena) = [0])) = some true := by
  decide +kernel

theorem frozen_losses_written_loaded :
    ∃ c, Machine.run (ClosingClient.step smallProtocol smallLosses .stored smallShape) smallClosing
        lossOfLoaded = some c ∧
      lossCells c.client.arena (ledgerSize smallLosses c.client.arena) = [0] ∧
      ∀ inputs d, (∀ input ∈ inputs, input.snapshotBegun = true ∧ input.snapshotValid = true) →
        Machine.run (ClosingClient.step smallProtocol smallLosses .stored smallShape) c
          (ClosingClient.frozenActions inputs) = some d →
        d.client.pc = .idle → d.client.status = .ok →
        LossesWritten smallLosses c.client.arena (d.client.log.drop c.client.log.length) := by
  obtain ⟨c, hc, heq⟩ := Option.map_eq_some_iff.mp lossOfLoaded_run
  obtain ⟨hready, hstopped, hcount, hgeneration, hknown, hsources, hrevision, hcells⟩ :=
    of_decide_eq_true heq
  have hcurrent : DirectoryCurrent c.client :=
    ⟨by rw [hgeneration]; decide, by rw [hgeneration, hknown], by rw [hcount, hsources]⟩
  refine ⟨c, hc, hcells, (frozen_losses_written_iff lawful_smallLosses true c hready hstopped
    (by rw [hcount]; norm_num)).mpr (.inr (.inr (.inr ⟨rfl, hcurrent, .inl ?_⟩)))⟩
  rw [hrevision]
  decide

/-- The call returns `Ok` after four operations. -/
def fourOperations : List (ClosingAction SamplePayload BinaryMarketSource) :=
  ClosingClient.frozenActions (List.replicate 4 {})

theorem lossOfAdded_run :
    (Machine.run (ClosingClient.step smallProtocol smallLosses .stored smallShape) smallClosing
      lossOfAdded).map (fun c => decide (c.client.stopped = true ∧
        lossCells c.client.arena (ledgerSize smallLosses c.client.arena) = [4] ∧
        (Machine.run (ClosingClient.step smallProtocol smallLosses .stored smallShape) c
          fourOperations).map (fun d => decide (d.ready = true ∧ d.client.status = .ok ∧
            d.client.log.length = 0)) = some true)) = some true := by
  decide +kernel

theorem frozen_losses_left_out :
    ∃ c d, Machine.run (ClosingClient.step smallProtocol smallLosses .stored smallShape) smallClosing
        lossOfAdded = some c ∧
      c.client.stopped = true ∧
      Machine.run (ClosingClient.step smallProtocol smallLosses .stored smallShape) c
        fourOperations = some d ∧
      d.ready = true ∧ d.client.status = .ok ∧
      ¬ LossesWritten smallLosses c.client.arena (d.client.log.drop c.client.log.length) := by
  obtain ⟨c, hc, heq⟩ := Option.map_eq_some_iff.mp lossOfAdded_run
  obtain ⟨hstopped, hcells, hd⟩ := of_decide_eq_true heq
  obtain ⟨d, hd, heq⟩ := Option.map_eq_some_iff.mp hd
  obtain ⟨hready, hstatus, hlog⟩ := of_decide_eq_true heq
  refine ⟨c, d, hc, hstopped, hd, hready, hstatus, fun hwritten => ?_⟩
  obtain ⟨gap, hgap, -⟩ := hwritten 4 (by rw [hcells]; exact List.mem_singleton_self 4)
  rw [List.eq_nil_of_length_eq_zero hlog, List.drop_nil] at hgap
  cases hgap

end HftRecorder.Capture
