import HftRecorder.Writer.Changes

/-!
# What survives I/O failures

The operations on segments can fail at any of their writes. `Settled s t` says what they keep
whatever the outcomes are: the catalogue, the gaps, the record count, and the latest cut; that only
open segments have pending records; and, where nothing is pending, that no block is added. It holds
of every change, and so for every call that does not take data in.
-/

namespace HftRecorder.Corpus

open ByteLayout Codec

/-- Only open segments have pending records. -/
def ClosedEmpty (s : WriterState) : Prop :=
  ∀ k, (s.segments k).isOpen = false → (s.segments k).pending = []

def AllFlushed (s : WriterState) : Prop := ∀ k < s.shardCount, (s.segments k).pending = []

/-- What an operation that takes no data in keeps, whatever it fails at. -/
structure Settled (s t : WriterState) : Prop where
  config : t.config = s.config
  sources : t.sources = s.sources
  gaps : t.gaps = s.gaps
  recordCount : t.manifest.recordCount = s.manifest.recordCount
  /-- A manifest that was once complete stays so. -/
  finalized : 0 < s.manifest.finalizedReceiveNs → 0 < t.manifest.finalizedReceiveNs
  latest : t.publication.latest = s.publication.latest
  /-- Pending records stay pending or go to a block together. -/
  pending : ∀ k, (t.segments k).pending = (s.segments k).pending ∨ (t.segments k).pending = []
  closed : ClosedEmpty s → ClosedEmpty t
  /-- Blocks come from pending records only. -/
  blocks : AllFlushed s → t.blocks = s.blocks

variable {X : Platform} {s t u : WriterState} {shard : ℕ}

theorem Settled.refl (s : WriterState) : Settled s s :=
  ⟨rfl, rfl, rfl, rfl, id, rfl, fun _ => .inl rfl, id, fun _ => rfl⟩

theorem Settled.shardCount (h : Settled s t) : t.shardCount = s.shardCount := by
  rw [WriterState.shardCount, h.config, WriterState.shardCount]

theorem Settled.allFlushed (h : Settled s t) (hs : AllFlushed s) : AllFlushed t := by
  intro k hk
  rcases h.pending k with hp | hp
  · rw [hp, hs k (h.shardCount ▸ hk)]
  · exact hp

theorem Settled.trans (h : Settled s t) (g : Settled t u) : Settled s u := by
  refine ⟨g.config.trans h.config, g.sources.trans h.sources, g.gaps.trans h.gaps,
    g.recordCount.trans h.recordCount, fun hs => g.finalized (h.finalized hs),
    g.latest.trans h.latest, fun k => ?_, fun hs => g.closed (h.closed hs),
    fun hs => (g.blocks (h.allFlushed hs)).trans (h.blocks hs)⟩
  rcases g.pending k with hk | hk
  · rw [hk]
    exact h.pending k
  · exact .inr hk

theorem Settled.of_segments (hconfig : t.config = s.config) (hsources : t.sources = s.sources)
    (hgaps : t.gaps = s.gaps) (hcount : t.manifest.recordCount = s.manifest.recordCount)
    (hfinalized : 0 < s.manifest.finalizedReceiveNs → 0 < t.manifest.finalizedReceiveNs)
    (hlatest : t.publication.latest = s.publication.latest) (hblocks : t.blocks = s.blocks)
    (hsegments : t.segments = s.segments) : Settled s t := by
  refine ⟨hconfig, hsources, hgaps, hcount, hfinalized, hlatest, ?_, ?_, fun _ => hblocks⟩
  · intro k
    rw [hsegments]
    exact .inl rfl
  · intro h k
    rw [hsegments]
    exact h k

theorem closedEmpty_update (hs : ClosedEmpty s) {segment : SegmentState}
    (hsegments : t.segments = Function.update s.segments shard segment)
    (hsegment : segment.isOpen = false → segment.pending = []) : ClosedEmpty t := by
  intro k
  rw [hsegments]
  rcases eq_or_ne k shard with rfl | hne
  · rw [Function.update_self]
    exact hsegment
  · rw [Function.update_of_ne hne]
    exact hs k

theorem Change.closedEmpty (h : Change X s t) (hs : ClosedEmpty s) : ClosedEmpty t := by
  cases h with
  | disk | quota => exact hs
  | stream shard | checksum shard => exact closedEmpty_update hs rfl (hs shard)
  | flush | reset => exact closedEmpty_update hs rfl fun _ => rfl
  | close _ hpending => exact closedEmpty_update hs rfl fun _ => hpending
  | @number shard => exact closedEmpty_update hs rfl (hs shard)

theorem Change.settled (h : Change X s t) : Settled s t where
  config := config_of_kept h.kept_eq
  sources := sources_of_kept h.kept_eq
  gaps := gaps_of_kept h.kept_eq
  recordCount := by rw [manifest_of_kept h.kept_eq]
  finalized hs := by
    rw [manifest_of_kept h.kept_eq]
    exact hs
  latest := latest_of_kept h.kept_eq
  pending := h.pending
  closed := h.closedEmpty
  blocks hs := by
    cases h with
    | flush hshard _ hguard =>
      have hpending := hguard.pending_eq
      rw [hs _ hshard] at hpending
      cases hpending
    | _ => rfl

theorem Changes.settled (h : Changes X s t) : Settled s t := by
  induction h with
  | refl => exact .refl s
  | tail _ h ih => exact ih.trans h.settled

theorem settled_openedSegment (s : WriterState) (shard : ℕ) : Settled s (openedSegment s shard) where
  config := rfl
  sources := rfl
  gaps := rfl
  recordCount := rfl
  finalized := id
  latest := rfl
  pending k := .inl (openedSegment_pending s shard k)
  closed hs := closedEmpty_update hs rfl nofun
  blocks _ := rfl

theorem Prepared.settled {ok : Bool} (h : Prepared X s shard (ok, t)) : Settled s t := by
  cases h with
  | kept h => exact h.settled
  | opened h => exact h.settled.trans (settled_openedSegment ..)

/-- A flush before a publication that succeeds leaves nothing pending. -/
theorem flushAndSyncShards_pending (shards : List ℕ) (hshards : ∀ shard ∈ shards, shard < s.shardCount)
    (hclosed : ClosedEmpty s) (hok : (flushAndSyncShards X shards s).1 = true) :
    ∀ k ∈ shards, ((flushAndSyncShards X shards s).2.segments k).pending = [] := by
  induction shards generalizing s with
  | nil => simp
  | cons shard shards ih =>
    -- After the first shard its pending records are gone, and the later shards bring none back.
    suffices hone : ∃ t, Changes X s t ∧ (t.segments shard).pending = [] ∧
        flushAndSyncShards X (shard :: shards) s = flushAndSyncShards X shards t by
      obtain ⟨t, ht, hpending, heq⟩ := hone
      have hbound : ∀ k ∈ shards, k < t.shardCount := fun k hk =>
        shardCount_of_kept ht.kept_eq ▸ hshards k (by simp [hk])
      rw [heq] at hok ⊢
      intro k hk
      rcases List.mem_cons.mp hk with rfl | hk
      · exact (changes_flushAndSyncShards shards hbound).pending_nil hpending
      · exact ih hbound (ht.settled.closed hclosed) hok k hk
    rw [flushAndSyncShards] at hok ⊢
    split at hok
    · rename_i hopen
      have hflush := changes_flushBlock (X := X) (hshards shard (by simp)) hopen
      obtain ⟨hok₁, heq₁⟩ := both_of_andThen hok
      rw [heq₁] at hok
      obtain ⟨hok₂, heq₂⟩ := both_of_andThen hok
      rw [heq₂] at hok
      obtain ⟨hok₃, heq₃⟩ := both_of_andThen hok
      have hsync := (changes_streamFlush (X := X) (flushBlock X s shard).2 shard).trans
        (changes_onDisk _ Disk.sync)
      refine ⟨_, hflush.trans hsync, hsync.pending_nil (flushBlock_pending hok₁), ?_⟩
      rw [if_pos hopen, heq₁, heq₂, heq₃]
    · rename_i hopen
      exact ⟨s, .refl s, hclosed shard (by simpa using hopen), if_neg hopen⟩

end HftRecorder.Corpus
