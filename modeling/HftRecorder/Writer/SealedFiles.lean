import HftRecorder.Writer.Outcomes

/-!
# The files of a sealed corpus

A `finalize` that returns `Ok` has written the three tables, the cut, and the manifest, and whatever
the directory operations before it met, these files hold what the writer held: `SealedFiles`. The
tables are written first, and nothing after them touches their files, since flushing a segment touches
the segment's own file only.
-/

namespace HftRecorder.Corpus

open ByteLayout Codec

variable {X : Platform} {s t : WriterState} {file : CorpusFile}

/-! ## What leaves a file alone -/

theorem read_andThen {result : Bool × WriterState} {continue_ : WriterState → Bool × WriterState}
    (hfirst : result.2.disk.read file = s.disk.read file)
    (hthen : ∀ s, (continue_ s).2.disk.read file = s.disk.read file) :
    (andThen result continue_).2.disk.read file = s.disk.read file := by
  obtain ⟨_ | _, t⟩ := result
  · exact hfirst
  · exact (hthen t).trans hfirst

theorem read_onDisk {operation : Disk CorpusFile → Bool × Disk CorpusFile}
    (h : ∀ d, (operation d).2.read file = d.read file) :
    (onDisk s operation).2.disk.read file = s.disk.read file := h s.disk

theorem read_streamWrite {shard : ℕ} {operation : Disk CorpusFile → Bool × Disk CorpusFile}
    (h : ∀ d, (operation d).2.read file = d.read file) :
    (streamWrite s shard operation).2.disk.read file = s.disk.read file := by
  have hdisk := h s.disk
  unfold streamWrite
  dsimp only
  split
  · split <;> rename_i he <;> rw [he] at hdisk <;> exact hdisk
  · rfl

theorem read_streamFlush (s : WriterState) (shard : ℕ) :
    (streamFlush s shard).2.disk.read file = s.disk.read file := by
  unfold streamFlush
  dsimp only
  split
  · exact read_streamWrite fun d => d.read_sync file
  · rfl

theorem read_flushBlock (hfile : isSegmentFile file = false) (s : WriterState) (shard : ℕ) :
    (flushBlock X s shard).2.disk.read file = s.disk.read file := by
  have hne : file ≠ partialPath s shard := ne_of_isSegmentFile hfile rfl
  unfold flushBlock
  dsimp only
  split
  · rfl
  split
  · rfl
  split
  · rfl
  split
  · rfl
  refine read_andThen (read_streamWrite fun d => d.read_append_ne _ hne) fun t => ?_
  exact read_andThen (read_streamWrite fun d => d.read_append_ne _ hne) fun _ => rfl

theorem read_flushAndSyncShards (hfile : isSegmentFile file = false) (shards : List ℕ)
    (s : WriterState) : (flushAndSyncShards X shards s).2.disk.read file = s.disk.read file := by
  induction shards generalizing s with
  | nil => rfl
  | cons shard shards ih =>
    unfold flushAndSyncShards
    split
    · refine read_andThen (read_flushBlock hfile s shard) fun t => ?_
      refine read_andThen (read_streamFlush t shard) fun u => ?_
      exact read_andThen (read_onDisk fun d => d.read_sync file) ih
    · exact ih s

/-! ## What the tables hold -/

def tableFile {α : Type} [Layout α] (magic : ℕ) (records : List α) : Bytes :=
  Layout.toBytes (tableHeader magic records) ++ tableBytes records

/-- A table that is written has at most as many records as its header can count, and is in its
file. -/
theorem writeTableAtomic_true {α : Type} [Layout α] {temporary target : CorpusFile} {magic : ℕ}
    {records : List α} (h : writeTableAtomic s temporary target magic records = (true, t)) :
    records.length ≤ maximumUInt32 ∧ t.disk.read target = some (tableFile magic records) ∧
      t = s.setDisk t.disk ∧
      ∀ file, file ≠ temporary → file ≠ target → t.disk.read file = s.disk.read file := by
  unfold writeTableAtomic at h
  split at h
  · cases h
  rename_i hlength
  unfold onDisk at h
  dsimp only at h
  generalize hpieces : (Layout.toBytes (tableHeader magic records) ::
    if records = [] then [] else [tableBytes records]) = pieces at h
  have hflatten : pieces.flatten = tableFile magic records := by
    rw [← hpieces, tableFile, List.flatten_cons]
    split
    · rename_i hnil
      rw [hnil, List.flatten_nil, tableBytes_nil]
    · rw [List.flatten_singleton]
  rcases hreplace : s.disk.replace temporary target pieces with ⟨ok, disk⟩
  rw [hreplace] at h
  cases h
  refine ⟨not_lt.mp hlength, (Disk.read_of_replace hreplace).trans (by rw [hflatten]), rfl, ?_⟩
  intro file htemporary htarget
  have hother := s.disk.read_replace_ne pieces htemporary htarget
  rw [hreplace] at hother
  exact hother

/-- The three tables of a state are in their files. -/
structure TablesWritten (s : WriterState) : Prop where
  sources_le : s.sources.length ≤ maximumUInt32
  index_le : s.index.length ≤ maximumUInt32
  gaps_le : s.gaps.length ≤ maximumUInt32
  sources : s.disk.read .sources = some (tableFile kBinaryMarketSourcesMagic s.sources)
  index : s.disk.read .index = some (tableFile kBinaryMarketIndexMagic s.index)
  gaps : s.disk.read .gaps = some (tableFile kBinaryMarketGapsMagic s.gaps)

/-- Tables that are written are those of the state. -/
theorem tablesWritten_writeTables (h : writeTables s = (true, t)) : TablesWritten t := by
  unfold writeTables at h
  rcases h₁ : writeTableAtomic s .sourcesTmp .sources kBinaryMarketSourcesMagic s.sources with
    ⟨_ | _, u⟩ <;> rw [h₁] at h
  · cases h
  rw [andThen_true] at h
  rcases h₂ : writeTableAtomic u .indexTmp .index kBinaryMarketIndexMagic u.index with
    ⟨_ | _, v⟩ <;> rw [h₂] at h
  · cases h
  rw [andThen_true] at h
  obtain ⟨hsourcesLe, hsources, hu, -⟩ := writeTableAtomic_true h₁
  obtain ⟨hindexLe, hindex, hv, hkeptIndex⟩ := writeTableAtomic_true h₂
  obtain ⟨hgapsLe, hgaps, ht, hkeptGaps⟩ := writeTableAtomic_true h
  have hsourcesU : u.sources = s.sources := by rw [hu]; rfl
  have hsourcesV : v.sources = u.sources := by rw [hv]; rfl
  have hindexV : v.index = u.index := by rw [hv]; rfl
  have hsourcesT : t.sources = v.sources := by rw [ht]; rfl
  have hindexT : t.index = v.index := by rw [ht]; rfl
  have hgapsT : t.gaps = v.gaps := by rw [ht]; rfl
  refine ⟨?_, ?_, hgapsT ▸ hgapsLe, ?_, ?_, ?_⟩
  · rw [hsourcesT, hsourcesV, hsourcesU]
    exact hsourcesLe
  · rw [hindexT, hindexV]
    exact hindexLe
  · rw [hkeptGaps _ (by decide) (by decide), hkeptIndex _ (by decide) (by decide), hsources,
      hsourcesT, hsourcesV, hsourcesU]
  · rw [hkeptGaps _ (by decide) (by decide), hindex, hindexT, hindexV]
  · rw [hgaps, hgapsT]

theorem TablesWritten.congr (h : TablesWritten s) (hsources : t.sources = s.sources)
    (hindex : t.index = s.index) (hgaps : t.gaps = s.gaps)
    (hread : ∀ file ∈ [CorpusFile.sources, .index, .gaps], t.disk.read file = s.disk.read file) :
    TablesWritten t := by
  refine ⟨hsources ▸ h.sources_le, hindex ▸ h.index_le, hgaps ▸ h.gaps_le, ?_, ?_, ?_⟩
  · rw [hread _ (by simp), hsources, h.sources]
  · rw [hread _ (by simp), hindex, h.index]
  · rw [hread _ (by simp), hgaps, h.gaps]

/-! ## The sealed corpus -/

/-- What the files of a sealed corpus hold. -/
structure SealedFiles (s : WriterState) : Prop where
  tables : TablesWritten s
  /-- The cut file has the last published cut. -/
  cut : ∃ cut, s.publication.latest = some cut ∧ s.disk.read .cut = some (encodeCorpusCut cut)
  manifest : s.disk.read .manifest = some (manifestBytes s.manifest)

/-- The last step of `finalize` writes the manifest and leaves the files before it. -/
theorem sealManifest_true (h : sealManifest s = (.ok, t)) :
    t.disk.read .manifest = some (manifestBytes (withProjected s).manifest) ∧
      t = { (withProjected s).setDisk t.disk with active := false } ∧
      ∀ file, file ≠ .manifestTmp → file ≠ .manifest → file ≠ .manifestPending →
        t.disk.read file = s.disk.read file := by
  unfold sealManifest onDisk at h
  dsimp only at h
  rcases hreplace : s.disk.replace .manifestTmp .manifest
    [manifestBytes { s.manifest with projectedBytes := s.projectedBytes }] with ⟨ok, disk⟩
  rw [hreplace] at h
  change s.disk.replace .manifestTmp .manifest [manifestBytes (withProjected s).manifest] =
    (ok, disk) at hreplace
  cases ok with
  | false => cases h
  | true =>
    cases h
    have hwritten := Disk.read_of_replace hreplace
    rw [List.flatten_singleton] at hwritten
    refine ⟨?_, rfl, ?_⟩
    · change (disk.remove .manifestPending).2.read .manifest = _
      rw [disk.read_remove_ne (by decide), hwritten]
    · intro file htemporary hmanifest hpending
      have hother := s.disk.read_replace_ne [manifestBytes (withProjected s).manifest] htemporary
        hmanifest
      rw [hreplace] at hother
      change (disk.remove .manifestPending).2.read file = _
      rw [disk.read_remove_ne hpending, hother]

theorem Published.read {now : ℕ} (h : Published X s now (.ok, t)) :
    (∃ cut, t.publication.latest = some cut ∧ t.disk.read .cut = some (encodeCorpusCut cut)) ∧
      ∀ file, isSegmentFile file = false → file ≠ .cutPending → file ≠ .cut →
        t.disk.read file = s.disk.read file := by
  cases h with
  | failed hne => exact absurd rfl hne
  | @published u before after cut _ _ hflush _ _ hsync hreplace =>
    have hcut := Disk.read_of_replace hreplace
    rw [List.flatten_singleton] at hcut
    refine ⟨⟨cut, rfl, hcut⟩, fun file hfile hpending hne => ?_⟩
    have hflushed := read_flushAndSyncShards (X := X) hfile s.shards s
    rw [hflush] at hflushed
    have hsynced := u.disk.read_sync file
    rw [hsync] at hsynced
    have hreplaced := before.read_replace_ne [encodeCorpusCut cut] hpending hne
    rw [hreplace] at hreplaced
    exact hreplaced.trans (hsynced.trans hflushed)

theorem Published.kept {now : ℕ} (h : Published X s now (.ok, t)) :
    t.sources = s.sources ∧ t.index = s.index ∧ t.gaps = s.gaps := by
  cases h with
  | failed hne => exact absurd rfl hne
  | @published u _ _ _ _ _ hflush =>
    have hkept := (changes_flushAll hflush).kept_eq
    have hsources : u.sources = s.sources := sources_of_kept hkept
    have hindex : u.index = s.index := index_of_kept hkept
    have hgaps : u.gaps = s.gaps := gaps_of_kept hkept
    exact ⟨hsources, hindex, hgaps⟩

/-- A seal that succeeds leaves the files of a sealed corpus. -/
theorem sealedFiles_finalize {reason : BinaryMarketStopReason} {finalizedReceiveNs : Int64} {now : ℕ}
    (h : finalize X s reason finalizedReceiveNs now = (.ok, t)) :
    SealedFiles t ∧ t.sources = s.sources ∧ t.index = s.index ∧ t.gaps = s.gaps := by
  have hfinalized := finalized_finalize X s reason finalizedReceiveNs now
  rw [h] at hfinalized
  generalize hresult : (Status.ok, t) = result at hfinalized
  cases hfinalized with
  | failed hne =>
    cases hresult
    exact absurd rfl hne
  | unpublished _ _ hne =>
    cases hresult
    exact absurd rfl hne
  | @published u v hreceive hreason hsealed hpublished =>
    have hkept := (changes_seal hsealed).kept_eq
    have hsourcesU : u.sources = s.sources := sources_of_kept hkept
    have hindexU : u.index = s.index := index_of_kept hkept
    have hgapsU : u.gaps = s.gaps := gaps_of_kept hkept
    have htables : TablesWritten u := by
      rcases hshards : sealShards X s.shards s with ⟨_ | _, w⟩ <;> rw [hshards] at hsealed
      · cases hsealed
      · exact tablesWritten_writeTables hsealed
    obtain ⟨hcut, hread⟩ := hpublished.read
    obtain ⟨hsources, hindex, hgaps⟩ := hpublished.kept
    obtain ⟨hmanifest, ht, hfiles⟩ := sealManifest_true hresult.symm
    have hlatest : t.publication = v.publication := by rw [ht]; rfl
    -- Neither the cut nor the manifest touches a table.
    have htables' : TablesWritten t := by
      have hv : TablesWritten v := by
        refine TablesWritten.congr (s := u) htables hsources hindex hgaps fun file hfile => ?_
        simp only [List.mem_cons, List.not_mem_nil, or_false] at hfile
        rcases hfile with rfl | rfl | rfl <;> exact hread _ rfl (by decide) (by decide)
      refine hv.congr (by rw [ht]; rfl) (by rw [ht]; rfl) (by rw [ht]; rfl) fun file hfile => ?_
      simp only [List.mem_cons, List.not_mem_nil, or_false] at hfile
      rcases hfile with rfl | rfl | rfl <;> exact hfiles _ (by decide) (by decide) (by decide)
    refine ⟨⟨htables', ?_, ?_⟩, ?_, ?_, ?_⟩
    · rw [hlatest, hfiles _ (by decide) (by decide) (by decide)]
      exact hcut
    · rw [hmanifest]
      congr 2
      rw [ht]
      rfl
    · have hsame : t.sources = v.sources := by rw [ht]; rfl
      exact hsame.trans (hsources.trans hsourcesU)
    · have hsame : t.index = v.index := by rw [ht]; rfl
      exact hsame.trans (hindex.trans hindexU)
    · have hsame : t.gaps = v.gaps := by rw [ht]; rfl
      exact hsame.trans (hgaps.trans hgapsU)

end HftRecorder.Corpus
