import HftRecorder.Reader.Decoder

/-!
# The metadata of a sealed corpus

The part of `BinaryMarketCorpusReader.cpp` that reads the manifest and the tables, with the
predicates of `BinaryMarketMetadataValidation.hpp`, and that checks the index and the gaps against
them. A failure carries the message that the code reports.
-/

namespace HftRecorder.Corpus

open ByteLayout Codec BinaryMarketChannel

/-! ## Manifest and tables -/

/-- `metadata::validSealedManifest`. -/
def validSealedManifest (m : BinaryMarketManifest) : Bool :=
  let hasRecords : Bool := m.recordCount ≠ 0
  m.magic = kBinaryMarketManifestMagic && m.headerBytes = 192 && m.producerEpoch ≠ 0 &&
    0 < m.startedReceiveNs && 0 < m.replayAnchorReceiveNs && m.replayAnchorMonotonicNs ≠ 0 &&
    m.startedReceiveNs ≤ m.finalizedReceiveNs && m.startedReceiveNs ≤ m.replayAnchorReceiveNs &&
    m.replayAnchorReceiveNs ≤ m.finalizedReceiveNs && m.maximumBytes ≠ 0 &&
    128 + 1024 + 64 ≤ m.segmentTargetBytes &&
    m.projectedBytes ≠ 0 && m.projectedBytes ≤ m.maximumBytes &&
    m.sourceCount ≠ 0 && m.sourceCount ≤ kBinaryMarketMaximumSources &&
    m.shardCount ≠ 0 && m.shardCount ≤ kBinaryMarketMaximumShards && m.complete = 1 &&
    1 ≤ m.stopReason.code && m.stopReason.code ≤ 4 &&
    m.gapCount ≤ m.sourceCount * kBinaryMarketStoredChannelCount &&
    m.indexCount ≤ m.maximumBytes / 72 && m.segmentCount ≤ m.indexCount &&
    hasRecords == decide (m.segmentCount ≠ 0) && hasRecords == decide (m.indexCount ≠ 0) &&
    (if hasRecords then 0 < m.firstReceiveNs else m.firstReceiveNs = 0) &&
    (if hasRecords then 0 < m.lastReceiveNs else m.lastReceiveNs = 0) &&
    (!hasRecords || m.firstReceiveNs ≤ m.lastReceiveNs) &&
    m.reserved = 0 && m.manifestCrc32c = m.crc

/-- `metadata::validTableHeader` for records of the given size. -/
def validTableHeader (h : BinaryMarketTableHeader) (recordBytes magic : ℕ) (expectedCrc : UInt32)
    (maximumBytes expectedRecords : ℕ) : Bool :=
  h.magic = magic && h.headerBytes = 64 && h.recordBytes = recordBytes &&
    h.recordCount = expectedRecords && h.reserved = 0 && h.headerCrc32c = h.crc &&
    h.recordsCrc32c = expectedCrc && h.recordCount * recordBytes ≤ maximumUInt64 &&
    h.recordCount * recordBytes ≤ maximumBytes

def tableName : CorpusFile → String
  | .sources => "sources.bin"
  | .index => "index.bin"
  | .gaps => "gaps.bin"
  | _ => ""

/-- The path of a table file in the corpus directory. -/
def tablePath (root : String) (file : CorpusFile) : String :=
  if root.endsWith "/" then root ++ tableName file else root ++ "/" ++ tableName file

/-- `readTable`. -/
def readTable {α : Type} [Layout α] (disk : Disk CorpusFile) (root : String) (file : CorpusFile)
    (magic : ℕ) (expectedCrc : UInt32) (maximumBytes expectedRecords : ℕ) :
    Except String (List α) :=
  match disk.read file with
  | none => .error ("binary corpus table is unavailable: " ++ tablePath root file)
  | some bytes =>
    let header : BinaryMarketTableHeader := Layout.ofBytes (bytes.take 64)
    let recordsBytes := header.recordCount * Layout.size α
    let records := (bytes.drop 64).take recordsBytes
    if bytes.length < 64 then .error ("binary corpus table is unavailable: " ++ tablePath root file)
    else if !validTableHeader header (Layout.size α) magic expectedCrc maximumBytes expectedRecords ∨
        bytes.length ≠ 64 + recordsBytes then
      .error ("binary corpus table contract mismatch: " ++ tablePath root file)
    else if crc32c records ≠ header.recordsCrc32c then
      .error ("binary corpus table CRC mismatch: " ++ tablePath root file)
    else .ok (tableOf header.recordCount records)

/-- `readManifest`. A manifest that does not pass is still left in the output. -/
def readManifest (disk : Disk CorpusFile) :
    Except (String × BinaryMarketManifest) BinaryMarketManifest :=
  match disk.read .manifest with
  | none => .error ("sealed binary corpus manifest is missing", {})
  | some bytes =>
    if bytes.length ≠ 192 then .error ("sealed binary corpus manifest is missing", {})
    else
      let manifest : BinaryMarketManifest := Layout.ofBytes bytes
      if validSealedManifest manifest then .ok manifest
      else .error ("binary corpus manifest contract mismatch", manifest)

variable {disk : Disk CorpusFile} {root : String} {m : BinaryMarketManifest}

/-- What a table that is read has passed: its header is valid, its records fill the rest of the file
and have the checksum in the header. -/
theorem readTable_ok {α : Type} [Layout α] {file : CorpusFile} {magic : ℕ} {expectedCrc : UInt32}
    {maximumBytes expectedRecords : ℕ} {l : List α}
    (h : readTable disk root file magic expectedCrc maximumBytes expectedRecords = .ok l) :
    ∃ (bytes : Bytes) (header : BinaryMarketTableHeader), disk.read file = some bytes ∧
      header = Layout.ofBytes (bytes.take 64) ∧ 64 ≤ bytes.length ∧
      validTableHeader header (Layout.size α) magic expectedCrc maximumBytes expectedRecords ∧
      crc32c (bytes.drop 64) = header.recordsCrc32c ∧
      l = tableOf header.recordCount (bytes.drop 64) := by
  unfold readTable at h
  split at h
  · cases h
  rename_i bytes hread
  dsimp only at h
  split_ifs at h with hshort hcontract hcrc
  rw [not_or, not_not] at hcontract
  have hall : (bytes.drop 64).length ≤ (Layout.ofBytes (bytes.take 64) :
      BinaryMarketTableHeader).recordCount * Layout.size α := by
    rw [List.length_drop]
    omega
  rw [List.take_of_length_le hall] at hcrc h
  exact ⟨bytes, _, hread, rfl, by omega, by simpa using hcontract.1, not_not.mp hcrc,
    (Except.ok.inj h).symm⟩

/-- What a manifest that is read has passed. -/
theorem readManifest_ok (h : readManifest disk = .ok m) :
    ∃ bytes, disk.read .manifest = some bytes ∧ bytes.length = 192 ∧
      m = Layout.ofBytes bytes ∧ validSealedManifest m = true := by
  unfold readManifest at h
  grind

/-! ## Requests and selections -/

/-- `BinaryMarketSelectionRequest`. -/
structure BinaryMarketSelectionRequest where
  root : String
  exchange : Bytes := []
  market : Bytes := []
  canonicalSymbol : Bytes := []
  beginReceiveNs : Int64
  endReceiveNs : Int64
  channelMask : UInt16
  requiredChannelMask : UInt16 := 0
  requireTraderReplayCompatibility : Bool := true
  allSources : Bool := false
  sourceIds : List ℕ := []

/-- `BinaryMarketSelection`. -/
structure BinaryMarketSelection where
  manifest : BinaryMarketManifest := {}
  source : BinaryMarketSource := ⟨Raw.ofBytes 272 []⟩
  gaps : List BinaryMarketGap := []
  presentChannelMask : UInt16 := 0
  sourceGeneration : ℕ := 0
  sourcePresentChannelMasks : List UInt16 := []
  sourceObservedChannelMasks : List UInt16 := []
  sourcesAtBegin : List BinaryMarketSource := []
  sourceLifecycleRevisionsAtBegin : List ℕ := []
  sourceUnhealthyChannelMasksAtBegin : List UInt16 := []
  sourceAdministrativeUnhealthyChannelMasksAtBegin : List UInt16 := []
  sourceRecoveryPendingChannelMasksAtBegin : List UInt16 := []

/-- How `open` fails: its status, its message, and the output as it leaves it. -/
structure OpenFailure where
  status : Status
  error : String
  output : BinaryMarketSelection

/-- The tests of `open` on the request alone. -/
def validSelectionRequest (r : BinaryMarketSelectionRequest) : Bool :=
  !(r.root = "" ||
    (if r.allSources then r.exchange ≠ [] || r.market ≠ [] || r.canonicalSymbol ≠ []
      else r.exchange = [] || r.market = [] || r.canonicalSymbol = []) ||
    (!r.allSources && r.sourceIds ≠ []) ||
    r.beginReceiveNs.toInt ≤ 0 || r.endReceiveNs.toInt ≤ r.beginReceiveNs.toInt ||
    r.channelMask = 0 || r.channelMask &&& ~~~(0x00ff : UInt16) ≠ 0 ||
    r.requiredChannelMask &&& ~~~r.channelMask ≠ 0)

/-- `BinaryMarketCorpusReader::catalog`: the manifest and the source catalogue. A failure leaves the
manifest that was read. -/
def catalog (disk : Disk CorpusFile) (root : String) :
    Except (String × BinaryMarketManifest) (BinaryMarketManifest × List BinaryMarketSource) :=
  if root = "" then .error ("", {})
  else
    match readManifest disk with
    | .error e => .error e
    | .ok manifest =>
      match readTable disk root .sources kBinaryMarketSourcesMagic manifest.sourcesCrc32c
          manifest.maximumBytes manifest.sourceCount with
      | .error e => .error (e, manifest)
      | .ok (sources : List BinaryMarketSource) =>
        if sources.length ≠ manifest.sourceCount then .error ("", manifest)
        else if sources.zipIdx.all fun (source, index) => validBinaryMarketSource source index then
          .ok (manifest, sources)
        else .error ("binary corpus source directory mismatch", manifest)

/-- When the manifest and the sources are read and pass. -/
theorem catalog_eq_ok {sources : List BinaryMarketSource} :
    catalog disk root = .ok (m, sources) ↔ root ≠ "" ∧ readManifest disk = .ok m ∧
      readTable disk root .sources kBinaryMarketSourcesMagic m.sourcesCrc32c m.maximumBytes
        m.sourceCount = .ok sources ∧ sources.length = m.sourceCount ∧
      sources.zipIdx.all fun (source, index) => validBinaryMarketSource source index := by
  unfold catalog
  grind

/-- `fixedText`. -/
def fixedText (data : Bytes) (bytes : ℕ) : Bytes :=
  if bytes ≠ 0 ∧ bytes ≤ data.length then data.take bytes else []

/-- The source has the identity that the request names. -/
def namesSource (r : BinaryMarketSelectionRequest) (source : BinaryMarketSource) : Bool :=
  fixedText source.venue source.venueBytes = r.exchange &&
    fixedText source.market source.marketBytes = r.market &&
    fixedText source.canonicalSymbol source.canonicalSymbolBytes = r.canonicalSymbol

/-- The loop of `open` over the explicit source ids. -/
def includeSourceIds (sourceCount : ℕ) : (ℕ → Bool) → List ℕ → Option (ℕ → Bool)
  | included, [] => some included
  | included, id :: ids =>
    if id = 0 ∨ id > sourceCount ∨ included id then none
    else includeSourceIds sourceCount (Function.update included id true) ids

/-- What `open` selects: the named source, if the request names one, and which ids are included. -/
structure SelectedSources where
  selected : Option BinaryMarketSource
  includedSources : ℕ → Bool

/-- The part of `open` that resolves the sources of the request. -/
def selectSources (r : BinaryMarketSelectionRequest) (sources : List BinaryMarketSource) :
    Except (Status × String) SelectedSources :=
  if r.sourceIds.length > sources.length then
    .error (.invalidArgument, "oversized selected corpus source set")
  else
    match includeSourceIds sources.length
        (fun id => r.allSources && r.sourceIds = [] && id ≠ 0 && id ≤ sources.length) r.sourceIds with
    | none => .error (.invalidArgument, "invalid or duplicate selected corpus source ID")
    | some included =>
      if r.allSources then .ok ⟨none, included⟩
      else
        match sources.filter (namesSource r) with
        | [] => .error (.outOfRange, "binary corpus source was not found")
        | [selected] =>
          .ok ⟨some selected, Function.update included selected.sourceId true⟩
        | _ => .error (.invalidArgument, "binary corpus source selection is ambiguous")

end HftRecorder.Corpus
