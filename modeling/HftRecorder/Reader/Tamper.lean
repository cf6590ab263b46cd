import HftRecorder.Format.SelfCheck
import HftRecorder.Reader.Preflight

/-!
# Changed bytes are detected

Every byte of the manifest, of the tables, and of the segments lies under a checksum that `open`
tests: those of the manifest, of the headers, and of the footers cover their own structure, the
checksum in a table's header covers its entries, and the one in a block's header its encoded rows.
The sizes that the headers state are those of the files, so nothing is left over. A corpus that opens
does not open after one byte of one of its files was changed, and `open` reports corrupt data. For a
segment the two decoders, of the file and of the changed file, hand out the same rows until one of
them gets to the change, and there the second one fails.
-/

namespace HftRecorder.Corpus

open ByteLayout Codec BinaryMarketChannel Loop SegmentDecoder

variable {X : Platform} {disk disk' : Disk CorpusFile} {epoch sourceCount : ℕ}

/-! ## The manifest and the tables -/

variable {m : BinaryMarketManifest}

theorem crc_of_validSealedManifest (h : validSealedManifest m = true) :
    m.manifestCrc32c = m.crc := by
  unfold validSealedManifest at h
  simp only [Bool.and_eq_true, decide_eq_true_eq] at h
  exact h.2

variable {expectedCrc : UInt32} {expectedRecords magic maximumBytes : ℕ}

theorem crc_of_validTableHeader {h : BinaryMarketTableHeader} {recordBytes : ℕ}
    (hvalid : validTableHeader h recordBytes magic expectedCrc maximumBytes expectedRecords = true) :
    h.headerCrc32c = h.crc := by
  unfold validTableHeader at hvalid
  simp only [Bool.and_eq_true, decide_eq_true_eq] at hvalid
  tauto

variable {b b' : Bytes}

theorem readManifest_tampered (h : readManifest disk = .ok m) (hb : disk.read .manifest = some b)
    (hb' : disk'.read .manifest = some b') (htampered : Tampered b b') :
    ∃ e, readManifest disk' = .error e := by
  cases h' : readManifest disk' with
  | error e => exact ⟨e, rfl⟩
  | ok m' =>
    obtain ⟨_, hread, hlength, rfl, hvalid⟩ := readManifest_ok h
    obtain ⟨_, hread', -, rfl, hvalid'⟩ := readManifest_ok h'
    obtain rfl := Option.some.inj (hread.symm.trans hb)
    obtain rfl := Option.some.inj (hread'.symm.trans hb')
    exact absurd (crc_of_validSealedManifest hvalid') (BinaryMarketManifest.selfChecked _ _ hlength
      htampered (crc_of_validSealedManifest hvalid))

variable {file : CorpusFile} {root : String}

/-- A changed table cannot be read. -/
theorem readTable_tampered {α : Type} [Layout α] {records : List α}
    (h : readTable disk root file magic expectedCrc maximumBytes expectedRecords = .ok records)
    (hb : disk.read file = some b) (hb' : disk'.read file = some b') (htampered : Tampered b b') :
    ∃ e, (readTable disk' root file magic expectedCrc maximumBytes expectedRecords :
      Except String (List α)) = .error e := by
  cases h' : (readTable disk' root file magic expectedCrc maximumBytes expectedRecords :
      Except String (List α)) with
  | error e => exact ⟨e, rfl⟩
  | ok records' =>
    obtain ⟨_, header, hread, hheader, hlength, hvalid, hcrc, -⟩ := readTable_ok h
    obtain ⟨_, header', hread', hheader', -, hvalid', hcrc', -⟩ := readTable_ok h'
    obtain rfl := Option.some.inj (hread.symm.trans hb)
    obtain rfl := Option.some.inj (hread'.symm.trans hb')
    rcases htampered.take_drop 64 with ⟨hhead, -⟩ | ⟨hhead, hrest⟩
    · -- The header does not pass its own check.
      subst hheader hheader'
      exact absurd (crc_of_validTableHeader hvalid') (BinaryMarketTableHeader.selfChecked _ _
        (List.length_take_of_le hlength) hhead (crc_of_validTableHeader hvalid))
    · -- The header is the same, and the entries do not have the checksum in it.
      rw [hheader', hhead, ← hheader, ← hcrc] at hcrc'
      exact absurd hcrc'.symm (crc32c_of_tampered hrest)

/-! ## Segments -/

def SegmentDecoder.withStream (d : SegmentDecoder) (stream : Bytes) : SegmentDecoder :=
  { d with stream }

/-- Two decoders that differ in the stream only, one byte of which was changed, and whose stream has
what the header says is left: the rest of the blocks and the footer. -/
structure TamperedAhead (d d' : SegmentDecoder) : Prop where
  same : d' = d.withStream d'.stream
  tampered : Tampered d.stream d'.stream
  running : d.finished = false
  body_le : d.bodyBytes ≤ d.header.storedBlockBytes
  left_eq : d.stream.length = d.header.storedBlockBytes - d.bodyBytes + 64

variable {key : SegmentKey}

theorem validHeader_crc {h : BinaryMarketSegmentHeader} {fileBytes : ℕ}
    (hvalid : validHeader h key epoch fileBytes = true) :
    h.headerCrc32c = h.crc ∧ fileBytes = 128 + h.storedBlockBytes + 64 := by
  unfold validHeader at hvalid
  simp only [Bool.and_eq_true, decide_eq_true_eq] at hvalid
  tauto

variable {d : SegmentDecoder}

theorem validFooter_crc {f : BinaryMarketSegmentFooter} (hvalid : d.validFooter f = true) :
    f.footerCrc32c = f.crc ∧ d.bodyBytes = d.header.storedBlockBytes := by
  unfold validFooter at hvalid
  simp only [Bool.and_eq_true, decide_eq_true_eq] at hvalid
  tauto

theorem validBlock_crc {b : BinaryMarketBlockHeader} (hvalid : d.validBlock X b = true) :
    b.headerCrc32c = b.crc ∧ 64 + b.encodedBytes ≤ d.header.storedBlockBytes - d.bodyBytes ∧
      b.recordCount ≠ 0 := by
  unfold validBlock at hvalid
  simp only [Bool.and_eq_true, decide_eq_true_eq] at hvalid
  tauto

/-- Opening the changed file fails, or the change is behind its header. -/
theorem open_tampered (h : SegmentDecoder.open disk key epoch = .ok d)
    (hb : disk.read (segmentPath key) = some b) (hb' : disk'.read (segmentPath key) = some b')
    (htampered : Tampered b b') :
    (∃ e, SegmentDecoder.open disk' key epoch = .error e) ∨
      ∃ d', SegmentDecoder.open disk' key epoch = .ok d' ∧ TamperedAhead d d' := by
  unfold SegmentDecoder.open at h ⊢
  rw [hb] at h
  rw [hb']
  dsimp only at h ⊢
  split at h
  · cases h
  rename_i hvalid
  cases h
  have hvalid' := not_or.mp hvalid
  obtain ⟨hlength, hheader⟩ := hvalid'
  rw [Bool.not_eq_true', Bool.not_eq_false] at hheader
  obtain ⟨hcrc, hbytes⟩ := validHeader_crc hheader
  rcases htampered.take_drop 128 with ⟨hhead, -⟩ | ⟨hhead, hrest⟩
  · left
    rw [if_pos]
    · exact ⟨_, rfl⟩
    · right
      rw [Bool.not_eq_true', Bool.eq_false_iff]
      intro htaken
      have hsize : (b.take 128).length = 128 := by
        rw [List.length_take]
        omega
      exact BinaryMarketSegmentHeader.selfChecked _ _ hsize hhead hcrc (validHeader_crc htaken).1
  · right
    rw [hhead, htampered.length_eq, if_neg hvalid]
    refine ⟨_, rfl, rfl, hrest, rfl, Nat.zero_le _, ?_⟩
    dsimp only
    rw [List.length_drop]
    omega

theorem countRows_withStream {channel : BinaryMarketChannel} {rows : List BinaryMarketRecord}
    (d : SegmentDecoder) (stream : Bytes) :
    (d.withStream stream).countRows X sourceCount channel rows =
      (d.countRows X sourceCount channel rows).map (·.withStream stream) := by
  induction rows generalizing d with
  | nil => rfl
  | cons row rows ih =>
    rw [countRows, countRows]
    change (if d.validRow X sourceCount channel row then
      ((d.countRow row).withStream stream).countRows X sourceCount channel rows else none) = _
    split
    · exact ih _
    · rfl

theorem countRows_frame {channel : BinaryMarketChannel} {rows : List BinaryMarketRecord}
    {counted : SegmentDecoder} (h : d.countRows X sourceCount channel rows = some counted) :
    counted.header = d.header ∧ counted.finished = d.finished := by
  induction rows generalizing d with
  | nil =>
    cases h
    exact ⟨rfl, rfl⟩
  | cons row rows ih =>
    rw [countRows] at h
    split at h
    · have hrest := ih h
      exact hrest
    · cases h

/-- Reading the next block fails with the change in it, and gives the same rows with the change
behind it. -/
theorem readBlock_tampered {d' t : SegmentDecoder} (hd : TamperedAhead d d')
    (h : d.readBlock X sourceCount = .ok t) :
    (∃ e, d'.readBlock X sourceCount = .error e) ∨
      ∃ t', d'.readBlock X sourceCount = .ok t' ∧ TamperedAhead t t' ∧ t.decoded ≠ [] := by
  obtain ⟨hsame, htampered, hrunning, hbody, hleft⟩ := hd
  rw [hsame]
  generalize d'.stream = stream' at htampered
  unfold readBlock at h ⊢
  dsimp only at h ⊢
  split at h
  · cases h
  rename_i hvalid
  split at h
  · cases h
  rename_i raw rows hrows
  split at h
  · cases h
  rename_i counted hcounted
  cases h
  rw [not_or, not_or, not_or, Bool.not_eq_true', Bool.not_eq_false, not_not] at hvalid
  obtain ⟨hlength, hblock, hencoded, hcrc⟩ := hvalid
  obtain ⟨hheaderCrc, hfits, hcount⟩ := validBlock_crc hblock
  have hblock' : ∀ b, (d.withStream stream').validBlock X b = d.validBlock X b := fun _ => rfl
  have hstream : (d.withStream stream').stream = stream' := rfl
  rw [hstream]
  rcases htampered.take_drop 64 with ⟨hhead, -⟩ | ⟨hhead, hrest⟩
  · -- The change is in the block header.
    left
    rw [if_pos]
    · exact ⟨_, rfl⟩
    · right
      left
      rw [Bool.not_eq_true', Bool.eq_false_iff, hblock']
      intro htaken
      have hsize : (d.stream.take 64).length = 64 := by
        rw [List.length_take]
        omega
      exact BinaryMarketBlockHeader.selfChecked _ _ hsize hhead hheaderCrc (validBlock_crc htaken).1
  · rw [hhead]
    generalize (Layout.ofBytes (d.stream.take 64) : BinaryMarketBlockHeader) = block at *
    rcases hrest.take_drop block.encodedBytes with ⟨hbytes, -⟩ | ⟨hbytes, hbehind⟩
    · -- It is in the encoded rows.
      left
      rw [if_pos]
      · exact ⟨_, rfl⟩
      · right
        right
        right
        rw [← hcrc]
        exact (crc32c_of_tampered hbytes).symm
    · -- It is behind the block.
      right
      rw [hbytes, if_neg, hrows]
      · dsimp only
        rw [countRows_withStream, hcounted, Option.map_some]
        obtain ⟨hheader, hfinished⟩ := countRows_frame hcounted
        refine ⟨_, rfl, ⟨rfl, hbehind, hfinished.trans hrunning, ?_, ?_⟩, ?_⟩
        · dsimp only
          rw [hheader]
          omega
        · dsimp only
          rw [hheader, List.length_drop, List.length_drop, hleft]
          omega
        · intro hnil
          have hlengthRows := length_decodeRows hrows
          rw [show rows = [] from hnil] at hlengthRows
          exact hcount hlengthRows.symm
      · rw [not_or, not_or, not_or, Bool.not_eq_true', Bool.not_eq_false, not_not, hblock',
          htampered.length_eq, hrest.length_eq]
        exact ⟨hlength, hblock, hencoded, hcrc⟩

/-- The decoder of the changed file hands out the same row, or it fails. It does not get to the end. -/
theorem next_tampered {d' t : SegmentDecoder} {row : Option BinaryMarketRecord}
    (hd : TamperedAhead d d') (h : d.next X sourceCount = .ok (row, t)) :
    (∃ e, d'.next X sourceCount = .error e) ∨
      ∃ t', row.isSome ∧ d'.next X sourceCount = .ok (row, t') ∧ TamperedAhead t t' := by
  have hrunning' : d'.finished = false := by
    rw [hd.same]
    exact hd.running
  have hdecoded : d'.decoded = d.decoded := by
    rw [hd.same]
    rfl
  have hblocks : d'.blocksSeen = d.blocksSeen ∧ d'.header = d.header := by
    rw [hd.same]
    exact ⟨rfl, rfl⟩
  unfold SegmentDecoder.next at h ⊢
  rw [if_neg (by rw [hd.running]; exact Bool.false_ne_true)] at h
  rw [if_neg (by rw [hrunning']; exact Bool.false_ne_true), hdecoded, hblocks.1, hblocks.2]
  split at h
  · -- A row that is already decoded.
    rename_i first rows hrows
    cases h
    right
    refine ⟨_, rfl, rfl, ?_, hd.tampered, hd.running, hd.body_le, hd.left_eq⟩
    rw [hd.same]
    rfl
  · rename_i hrows
    split at h
    · -- The footer, which is all that is left.
      rename_i hlast
      split at h
      · cases h
      rename_i hvalid
      rw [not_or, Bool.not_eq_true', Bool.not_eq_false] at hvalid
      obtain ⟨hlength, hfooter⟩ := hvalid
      obtain ⟨hcrc, hbody⟩ := validFooter_crc hfooter
      have hsize : d.stream.length = 64 := by
        rw [hd.left_eq, hbody]
        omega
      left
      rw [if_pos hlast, if_pos]
      · exact ⟨_, rfl⟩
      · right
        rw [Bool.not_eq_true', Bool.eq_false_iff]
        intro hfooter'
        have hwhole : d.stream.take 64 = d.stream := List.take_of_length_le hsize.le
        have hwhole' : d'.stream.take 64 = d'.stream :=
          List.take_of_length_le (hd.tampered.length_eq.trans hsize).le
        rw [hwhole] at hcrc
        rw [hwhole'] at hfooter'
        exact BinaryMarketSegmentFooter.selfChecked _ _ hsize hd.tampered hcrc
          (validFooter_crc hfooter').1
    · rename_i hmore
      rw [if_neg hmore]
      split at h
      · cases h
      rename_i u hu
      rcases readBlock_tampered hd hu with ⟨e, he⟩ | ⟨u', hu', hahead, hnonempty⟩
      · rw [he]
        exact .inl ⟨e, rfl⟩
      · right
        have hdecoded' : u'.decoded = u.decoded := by
          rw [hahead.same]
          rfl
        rw [hu']
        dsimp only
        rw [hdecoded']
        split at h
        · cases h
          refine ⟨_, rfl, rfl, ?_, hahead.tampered, hahead.running, hahead.body_le, hahead.left_eq⟩
          rw [hahead.same]
          rfl
        · rename_i hnil
          exact absurd hnil hnonempty

/-! ## The pass over the segments -/

/-- The loop over the records of the changed segment does not get to its end. -/
theorem segmentLoop_tampered {fuel : ℕ} {p q : SegmentPass} {d' : SegmentDecoder}
    (hahead : TamperedAhead p.decoder d')
    (h : loop (segmentRound X sourceCount key) fuel p = some (.ok q)) (q' : SegmentPass) :
    loop (segmentRound X sourceCount key) fuel { p with decoder := d' } ≠ some (.ok q') := by
  induction fuel generalizing p d' with
  | zero => cases h
  | succ fuel ih =>
    rw [loop, segmentRound] at h ⊢
    cases hnext : p.decoder.next X sourceCount with
    | error e =>
      rw [hnext] at h
      cases h
    | ok result =>
      obtain ⟨row, t⟩ := result
      rw [hnext] at h
      rcases next_tampered hahead hnext with ⟨e, he⟩ | ⟨t', hsome, hnext', hahead'⟩
      · dsimp only
        rw [he]
        intro hq
        cases hq
      · obtain ⟨first, rfl⟩ := Option.isSome_iff_exists.mp hsome
        dsimp only at h ⊢
        rw [hnext']
        dsimp only
        split at h
        · cases h
        · rename_i heq
          split at heq <;> cases heq
        · rename_i u heq
          split at heq
          · rename_i horder
            cases heq
            rw [if_pos horder]
            exact ih hahead' h
          · cases heq

variable {p : CorpusPass} {index : List BinaryMarketIndexEntry} {number : ℕ} {segmentShards : ℕ → ℕ}

/-- The changed segment does not pass. -/
theorem checkSegment_tampered {q : CorpusPass}
    (h : checkSegment X disk m sourceCount index segmentShards p number = .ok q)
    (hb : disk.read (segmentPath ⟨number, segmentShards number⟩) = some b)
    (hb' : disk'.read (segmentPath ⟨number, segmentShards number⟩) = some b')
    (htampered : Tampered b b') :
    ∃ e, checkSegment X disk' m sourceCount index segmentShards p number = .error e := by
  unfold checkSegment at h ⊢
  dsimp only at h ⊢
  split at h
  · cases h
  rename_i d hd
  split at h
  · cases h
  rename_i hquota
  split at h
  · cases h
  · cases h
  rename_i pass hpass
  rcases open_tampered hd hb hb' htampered with ⟨e, he⟩ | ⟨d', hd', hahead⟩
  · rw [he]
    exact ⟨e, rfl⟩
  · have hheader : d'.header = d.header := by
      rw [hahead.same]
      rfl
    have hbound : d'.rowBound = d.rowBound := by
      rw [rowBound, rowBound, hahead.tampered.length_eq, hahead.same]
      rfl
    rw [hd']
    dsimp only
    rw [hheader, if_neg hquota, hbound]
    have hnot := segmentLoop_tampered hahead hpass
    split
    · exact ⟨_, rfl⟩
    · exact ⟨_, rfl⟩
    · rename_i q' hq'
      exact absurd hq' (hnot q')

theorem checkSegment_congr (h : disk'.read (segmentPath ⟨number, segmentShards number⟩) =
      disk.read (segmentPath ⟨number, segmentShards number⟩)) :
    checkSegment X disk' m sourceCount index segmentShards p number =
      checkSegment X disk m sourceCount index segmentShards p number := by
  unfold checkSegment SegmentDecoder.open
  dsimp only
  rw [h]

theorem checkSegments_tampered {numbers : List ℕ} {q : CorpusPass}
    (h : checkSegments X disk m sourceCount index segmentShards p numbers = .ok q)
    (hnumber : number ∈ numbers)
    (hb : disk.read (segmentPath ⟨number, segmentShards number⟩) = some b)
    (hb' : disk'.read (segmentPath ⟨number, segmentShards number⟩) = some b')
    (htampered : Tampered b b')
    (hothers : ∀ n ≠ number, disk'.read (segmentPath ⟨n, segmentShards n⟩) =
      disk.read (segmentPath ⟨n, segmentShards n⟩)) :
    ∃ e, checkSegments X disk' m sourceCount index segmentShards p numbers = .error e := by
  induction numbers generalizing p with
  | nil => cases hnumber
  | cons n numbers ih =>
    rw [checkSegments] at h ⊢
    split at h
    · cases h
    rename_i next hnext
    rcases eq_or_ne n number with rfl | hne
    · obtain ⟨e, he⟩ := checkSegment_tampered hnext hb hb' htampered
      rw [he]
      exact ⟨e, rfl⟩
    · rw [checkSegment_congr (hothers n hne), hnext]
      exact ih h (List.mem_of_ne_of_mem hne.symm hnumber)

/-! ## The segments of the index -/

/-- The shard of every segment is that of its index entries. -/
structure ShardsOf (m : BinaryMarketManifest) (t : IndexTotals) (e : BinaryMarketIndexEntry) :
    Prop where
  number_pos : 1 ≤ e.segmentNumber
  number_le : e.segmentNumber ≤ m.segmentCount
  shard_eq : t.segmentShards e.segmentNumber = e.shardIndex
  shard_lt : e.shardIndex < m.shardCount

variable {e : BinaryMarketIndexEntry} {t : IndexTotals} {sources : List BinaryMarketSource}

/-- Counting an entry fixes the shard of its segment. -/
theorem shardsOf_countIndexEntry {u : IndexTotals} (hshards : m.shardCount ≤ 65535)
    (h : countIndexEntry m sources t e = .ok u) :
    ShardsOf m u e ∧ ∀ other, ShardsOf m t other → ShardsOf m u other := by
  unfold countIndexEntry at h
  split at h
  · cases h
  rename_i hvalid
  split at h
  · cases h
  split at h
  · cases h
  rename_i hcross
  split at h
  · cases h
  cases h
  unfold validIndexEntry at hvalid
  simp only [Bool.not_eq_true', Bool.not_eq_false, Bool.and_eq_true, decide_eq_true_eq] at hvalid
  have hpos : e.segmentNumber ≠ 0 ∧ e.segmentNumber ≤ m.segmentCount ∧
      e.shardIndex < m.shardCount := by tauto
  obtain ⟨hne, hle, hlt⟩ := hpos
  refine ⟨⟨Nat.one_le_iff_ne_zero.mpr hne, hle, Function.update_self .., hlt⟩, ?_⟩
  intro other hother
  refine ⟨hother.number_pos, hother.number_le, ?_, hother.shard_lt⟩
  -- An entry of the same segment has the same shard, which is not the mark of a missing one.
  rcases eq_or_ne other.segmentNumber e.segmentNumber with heq | hneq
  · dsimp only
    rw [heq, Function.update_self]
    have hshard := hother.shard_eq
    have hother_lt := hother.shard_lt
    rw [heq] at hshard
    rw [hshard] at hcross
    by_contra hdiff
    exact hcross ⟨by omega, fun hsame => hdiff hsame.symm⟩
  · dsimp only
    rw [Function.update_of_ne hneq]
    exact hother.shard_eq

theorem countIndex_cons_ok {u : IndexTotals} (h : countIndex m sources t (e :: index) = .ok u) :
    ∃ v, countIndexEntry m sources t e = .ok v ∧ countIndex m sources v index = .ok u := by
  rw [countIndex, List.foldlM_cons] at h
  cases hnext : countIndexEntry m sources t e with
  | error error =>
    rw [hnext] at h
    cases h
  | ok v =>
    rw [hnext] at h
    exact ⟨v, rfl, h⟩

theorem shardsOf_countIndex {u : IndexTotals} (hshards : m.shardCount ≤ 65535)
    (h : countIndex m sources t index = .ok u) :
    (∀ e ∈ index, ShardsOf m u e) ∧ ∀ other, ShardsOf m t other → ShardsOf m u other := by
  induction index generalizing t with
  | nil =>
    cases h
    refine ⟨?_, fun _ hother => hother⟩
    intro e he
    cases he
  | cons e index ih =>
    obtain ⟨next, hnext, hindex⟩ := countIndex_cons_ok h
    obtain ⟨hself, hkept⟩ := shardsOf_countIndexEntry hshards hnext
    obtain ⟨hrest, hkept'⟩ := ih hindex
    refine ⟨?_, fun other hother => hkept' other (hkept other hother)⟩
    intro other hother
    rcases List.mem_cons.mp hother with rfl | hother
    · exact hkept' _ hself
    · exact hrest other hother

/-! ## `open` on a changed corpus -/

def corpusIndex (disk : Disk CorpusFile) : List BinaryMarketIndexEntry :=
  let bytes := disk.contents .index
  let header : BinaryMarketTableHeader := Layout.ofBytes (bytes.take 64)
  tableOf header.recordCount (bytes.drop 64)

/-- The files of a sealed corpus: the manifest, the tables, and the segments that the index lists. -/
def corpusFiles (disk : Disk CorpusFile) : List CorpusFile :=
  [.manifest, .sources, .index, .gaps] ++
    (corpusIndex disk).map fun e => segmentPath e.segmentKey

/-- The second directory is the first with one byte of the given file changed. -/
structure ChangedFile (disk disk' : Disk CorpusFile) (file : CorpusFile) (b b' : Bytes) : Prop where
  read_eq : disk.read file = some b
  read_eq' : disk'.read file = some b'
  tampered : Tampered b b'
  others : ∀ f ≠ file, disk'.read f = disk.read f

theorem readTable_congr {α : Type} [Layout α] (h : disk'.read file = disk.read file) :
    (readTable disk' root file magic expectedCrc maximumBytes expectedRecords :
      Except String (List α)) =
      readTable disk root file magic expectedCrc maximumBytes expectedRecords := by
  unfold readTable
  rw [h]

theorem readManifest_congr (h : disk'.read .manifest = disk.read .manifest) :
    readManifest disk' = readManifest disk := by
  unfold readManifest
  rw [h]

theorem catalog_changed {result : BinaryMarketManifest × List BinaryMarketSource}
    (h : catalog disk root = .ok result) (hchanged : ChangedFile disk disk' file b b') :
    (file = .manifest ∨ file = .sources → ∃ e, catalog disk' root = .error e) ∧
      (file ≠ .manifest → file ≠ .sources → catalog disk' root = .ok result) := by
  obtain ⟨hb, hb', htampered, hothers⟩ := hchanged
  obtain ⟨hroot, hm, hsources, hpassed⟩ := catalog_eq_ok.mp h
  refine ⟨?_, fun hmanifest hsourcesFile => catalog_eq_ok.mpr ⟨hroot, ?_, ?_, hpassed⟩⟩
  · rw [catalog, if_neg hroot]
    rintro (rfl | rfl)
    · obtain ⟨e, he⟩ := readManifest_tampered hm hb hb' htampered
      rw [he]
      exact ⟨e, rfl⟩
    · obtain ⟨e, he⟩ := readTable_tampered hsources hb hb' htampered
      rw [readManifest_congr (hothers _ (by decide)), hm]
      dsimp only
      rw [he]
      exact ⟨_, rfl⟩
  · rwa [readManifest_congr (hothers _ (Ne.symm hmanifest))]
  · rwa [readTable_congr (hothers _ (Ne.symm hsourcesFile))]

theorem readTable_index
    (h : readTable disk root .index kBinaryMarketIndexMagic expectedCrc maximumBytes
      expectedRecords = .ok index) : corpusIndex disk = index := by
  obtain ⟨bytes, header, hbytes, rfl, -, -, -, rfl⟩ := readTable_ok h
  rw [corpusIndex, Disk.contents, hbytes, Option.getD_some]

variable {r : BinaryMarketSelectionRequest}

/-- A changed index or gap table is found. -/
theorem openTables_changed {output : BinaryMarketSelection} {selection : SelectedSources}
    {d : OpenedMetadata} (h : openTables disk r output sources selection = .ok d)
    (hchanged : ChangedFile disk disk' file b b') :
    (file = .index ∨ file = .gaps →
        ∃ failure, openTables disk' r output sources selection = .error failure ∧
          failure.status = .corruptData) ∧
      (file ≠ .index → file ≠ .gaps → openTables disk' r output sources selection = .ok d) := by
  obtain ⟨hb, hb', htampered, hothers⟩ := hchanged
  obtain ⟨hindex, hgaps, hpassed⟩ := openTables_eq_ok.mp h
  refine ⟨?_, fun hindexFile hgapsFile => openTables_eq_ok.mpr ⟨?_, ?_, hpassed⟩⟩
  · unfold openTables
    rintro (rfl | rfl)
    · obtain ⟨e, he⟩ := readTable_tampered hindex hb hb' htampered
      dsimp only
      rw [he]
      exact ⟨_, rfl, rfl⟩
    · obtain ⟨e, he⟩ := readTable_tampered hgaps hb hb' htampered
      dsimp only
      rw [readTable_congr (hothers _ (by decide)), hindex]
      dsimp only
      rw [he]
      exact ⟨_, rfl, rfl⟩
  · rwa [readTable_congr (hothers _ (Ne.symm hindexFile))]
  · rwa [readTable_congr (hothers _ (Ne.symm hgapsFile))]

theorem shardCount_of_validSealedManifest (h : validSealedManifest m = true) :
    m.shardCount ≤ kBinaryMarketMaximumShards := by
  unfold validSealedManifest at h
  simp only [Bool.and_eq_true, decide_eq_true_eq] at h
  tauto

/-- The index of a corpus whose metadata passes is the one on the disk, and each entry of it has a
segment and a shard. -/
theorem openMetadata_index {d : OpenedMetadata} (h : openMetadata disk r = .ok d) :
    d.index = corpusIndex disk ∧ ∀ e ∈ d.index, ShardsOf d.output.manifest d.totals e := by
  obtain ⟨hcatalog, -, -, htables, -⟩ := openMetadata_ok h
  obtain ⟨-, hmanifest, -⟩ := catalog_eq_ok.mp hcatalog
  obtain ⟨-, -, -, -, hvalid⟩ := readManifest_ok hmanifest
  have hshards : d.output.manifest.shardCount ≤ 65535 :=
    (shardCount_of_validSealedManifest hvalid).trans (by rw [kBinaryMarketMaximumShards]; omega)
  obtain ⟨hindex, -, htotals, -⟩ := openTables_eq_ok.mp htables
  refine ⟨(readTable_index hindex).symm, ?_⟩
  unfold checkIndex at htotals
  split at htotals
  · cases htotals
  rename_i counted hcounted
  split at htotals
  · cases htotals
  rw [← Except.ok.inj htotals]
  exact (shardsOf_countIndex hshards hcounted).1

/-- The metadata of a corpus with a changed file: a change of a metadata file is corrupt data, and a
change of another file does not show. -/
theorem openMetadata_changed {d : OpenedMetadata} (h : openMetadata disk r = .ok d)
    (hchanged : ChangedFile disk disk' file b b') :
    (file ∈ [CorpusFile.manifest, .sources, .index, .gaps] →
        ∃ failure, openMetadata disk' r = .error failure ∧ failure.status = .corruptData) ∧
      (file ∉ [CorpusFile.manifest, .sources, .index, .gaps] → openMetadata disk' r = .ok d) := by
  obtain ⟨hcatalog, -, -, htables, hrest⟩ := openMetadata_ok h
  obtain ⟨hcatalogBad, hcatalogSame⟩ := catalog_changed hcatalog hchanged
  obtain ⟨htablesBad, htablesSame⟩ := openTables_changed htables hchanged
  simp only [List.mem_cons, List.not_mem_nil, or_false, not_or]
  refine ⟨fun hfile => ?_, fun ⟨hmanifest, hsources, hindex, hgaps⟩ => ?_⟩
  · by_cases hfirst : file = .manifest ∨ file = .sources
    · obtain ⟨e, he⟩ := hcatalogBad hfirst
      have hrequest : ¬(!validSelectionRequest r) = true := fun hinvalid => by
        simp [openMetadata, hinvalid] at h
      rw [openMetadata, if_neg hrequest, he]
      exact ⟨_, rfl, rfl⟩
    · rw [not_or] at hfirst
      rw [hrest disk' ((hcatalogSame hfirst.1 hfirst.2).trans hcatalog.symm)]
      exact htablesBad (by tauto)
  · rw [hrest disk' ((hcatalogSame hmanifest hsources).trans hcatalog.symm)]
    exact htablesSame hindex hgaps

/-- The check of the segments fails with a changed segment. -/
theorem checkCorpus_changed {gaps : List BinaryMarketGap}
    (h : checkCorpus X disk m sources index gaps t.segmentShards = .ok p) (he : ShardsOf m t e)
    (hchanged : ChangedFile disk disk' (segmentPath e.segmentKey) b b') :
    ∃ error, checkCorpus X disk' m sources index gaps t.segmentShards = .error error := by
  obtain ⟨hb, hb', htampered, hothers⟩ := hchanged
  have hkey : (⟨e.segmentNumber, t.segmentShards e.segmentNumber⟩ : SegmentKey) = e.segmentKey := by
    rw [he.shard_eq]
    rfl
  have hnumber : e.segmentNumber ∈ List.range' 1 m.segmentCount := by
    rw [List.mem_range'_1]
    exact ⟨he.number_pos, by have := he.number_le; omega⟩
  have hsame : ∀ n ≠ e.segmentNumber, disk'.read (segmentPath ⟨n, t.segmentShards n⟩) =
      disk.read (segmentPath ⟨n, t.segmentShards n⟩) := by
    intro n hn
    refine hothers _ fun hpath => hn ?_
    exact (CorpusFile.sealedSegment.inj hpath).2
  unfold checkCorpus at h ⊢
  split at h
  · cases h
  rename_i q hq
  rw [← hkey] at hb hb'
  obtain ⟨error, herror⟩ := checkSegments_tampered hq hnumber hb hb' htampered hsame
  rw [herror]
  exact ⟨error, rfl⟩

/-- A corpus that opens does not open for the same request after one byte of one of its files was
changed, and `open` reports corrupt data. -/
theorem open_detects_changed_byte (X : Platform) (disk : Disk CorpusFile)
    (r : BinaryMarketSelectionRequest) (selection : BinaryMarketSelection) (cursor : CursorState)
    (h : openCursor X disk r = .ok (selection, cursor)) (file : CorpusFile)
    (hfile : file ∈ corpusFiles disk) (bytes : Bytes) (hbytes : disk.read file = some bytes)
    (i : ℕ) (hi : i < bytes.length) (byte : UInt8) (hbyte : bytes[i]? ≠ some byte) :
    ∃ failure, openCursor X (disk.put file (bytes.set i byte)) r = .error failure ∧
      failure.status = .corruptData := by
  have hchanged : ChangedFile disk (disk.put file (bytes.set i byte)) file bytes
      (bytes.set i byte) :=
    ⟨hbytes, Disk.read_put_same .., Tampered.set hi hbyte, fun _ hf => Disk.read_put_ne _ _ hf⟩
  obtain ⟨s, p, hpass, -⟩ := openCursor_ok h
  obtain ⟨d, pass, hd, hcorpus, -⟩ := openPass_eq_ok.mp hpass
  obtain ⟨hbad, hsame⟩ := openMetadata_changed hd hchanged
  obtain ⟨hindex, hshards⟩ := openMetadata_index hd
  unfold openCursor openPass
  by_cases hmetadata : file ∈ [CorpusFile.manifest, .sources, .index, .gaps]
  · obtain ⟨failure, hfailure, hstatus⟩ := hbad hmetadata
    rw [hfailure]
    exact ⟨failure, rfl, hstatus⟩
  · -- One of the segments that the index lists.
    rcases List.mem_append.mp hfile with hfile | hfile
    · exact absurd hfile hmetadata
    obtain ⟨e, he, rfl⟩ := List.mem_map.mp hfile
    rw [← hindex] at he
    obtain ⟨error, herror⟩ := checkCorpus_changed hcorpus (hshards e he) hchanged
    rw [hsame hmetadata]
    dsimp only
    rw [herror]
    exact ⟨_, rfl, rfl⟩

/-- The one segment of the corpus whose clocks disagree. -/
def clockSegment : CorpusFile := segmentPath ⟨1, 0⟩

theorem clockSegment_mem : clockSegment ∈ corpusFiles disagreeingClocks := by
  decide +kernel

def clockSegmentBytes : Bytes := (disagreeingClocks.read clockSegment).get (by decide +kernel)

/-- That corpus opens, and it does not after a byte of its segment was changed. -/
theorem open_detects_changed_byte_segment :
    ∃ selection cursor failure,
      openCursor .stored disagreeingClocks lateRequest = .ok (selection, cursor) ∧
      disagreeingClocks.read clockSegment = some clockSegmentBytes ∧
      openCursor .stored (disagreeingClocks.put clockSegment (clockSegmentBytes.set 200 7))
        lateRequest = .error failure ∧
      failure.status = .corruptData := by
  obtain ⟨selection, cursor, hopen, -⟩ := exists_disagreeingClocks_open
  have hbytes : disagreeingClocks.read clockSegment = some clockSegmentBytes :=
    (Option.some_get _).symm
  obtain ⟨failure, hfailure, hstatus⟩ := open_detects_changed_byte .stored disagreeingClocks
    lateRequest selection cursor hopen clockSegment clockSegment_mem _ hbytes 200 (by decide +kernel)
    7 (by decide +kernel)
  exact ⟨selection, cursor, failure, hopen, hbytes, hfailure, hstatus⟩

end HftRecorder.Corpus
