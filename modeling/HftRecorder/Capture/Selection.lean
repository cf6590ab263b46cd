import HftRecorder.Format.Source
import HftRecorder.Lib.LastWrite
import HftRecorder.Lib.Lists
import HftRecorder.Lib.Mask
import HftRecorder.Writer.Run

/-!
# Subscriptions for a capture selection

`planRecorderSubscriptionChanges` compares a selection of venues and instruments with the source
directory of the producer and lists the channel subscriptions to remove and to add. The selection is
matched against the directory in two nested loops that set one entry of `wanted` for each selected
source (`wantedChannels_ok`). The changes are writes to the channel bits of the directory; no bit is
written twice (`nodup_targets`), so each change is still to be made when its turn comes, and together
they give every source its wanted channels.
-/

namespace HftRecorder.Corpus.BinaryMarketSource

open ByteLayout

variable (s : BinaryMarketSource) (mask : UInt16)

/-- The texts that name a source in selections: the used part of three character arrays. -/
def venueText : Bytes := s.venue.take s.venueBytes
@[inherit_doc venueText] def marketText : Bytes := s.market.take s.marketBytes
@[inherit_doc venueText] def canonicalSymbolText : Bytes :=
  s.canonicalSymbol.take s.canonicalSymbolBytes

theorem field_withAvailableChannelMask_before {o w : ℕ} (h : o + w ≤ 110) :
    field (s.withAvailableChannelMask mask).bytes o w = field s.bytes o w :=
  field_setField_before h (by rw [s.length_bytes]; norm_num)

theorem drop_withAvailableChannelMask {o : ℕ} (h : 112 ≤ o) :
    (s.withAvailableChannelMask mask).bytes.drop o = s.bytes.drop o :=
  drop_setField h (by rw [s.length_bytes]; norm_num)

theorem field_withAvailableChannelMask_after {o w : ℕ} (h : 112 ≤ o) :
    field (s.withAvailableChannelMask mask).bytes o w = field s.bytes o w :=
  field_setField_after h (by rw [s.length_bytes]; norm_num)

@[simp]
theorem availableChannelMask_withAvailableChannelMask :
    (s.withAvailableChannelMask mask).availableChannelMask = mask := by
  have hfield : field (s.withAvailableChannelMask mask).bytes 110 2 = mask.toNat :=
    field_setField_same (by rw [s.length_bytes]; norm_num) mask.toNat_lt
  rw [availableChannelMask, hfield, UInt16.ofNat_toNat]

@[simp]
theorem sourceId_withAvailableChannelMask :
    (s.withAvailableChannelMask mask).sourceId = s.sourceId :=
  field_withAvailableChannelMask_before s mask (by norm_num)

end HftRecorder.Corpus.BinaryMarketSource

namespace HftRecorder.Capture

open ByteLayout (Bytes)
open Corpus LastWrite Mask

/-! ## The selection -/

/-- `lower`: upper-case ASCII letters become lower-case ones. -/
def lower (input : Bytes) : Bytes := input.map fun c => if 65 ≤ c ∧ c ≤ 90 then c - 65 + 97 else c

/-- The characters that `safeToken` admits. -/
def safeChar (c : UInt8) : Bool :=
  (97 ≤ c && c ≤ 122) || (65 ≤ c && c ≤ 90) || (48 ≤ c && c ≤ 57) ||
    (asciiBytes "_/@.-:").contains c

/-- `safeToken`. -/
def safeToken (text : Bytes) (maximum : ℕ) : Bool :=
  text != [] && text.length ≤ maximum && text.all safeChar

/-- `RecorderCaptureVenue`. -/
structure RecorderCaptureVenue where
  exchange : Bytes
  market : Bytes
  instruments : List Bytes
  fullUniverse : Bool
  deriving DecidableEq

/-- The members of `RecorderCaptureSessionConfig` that say what is captured. -/
structure RecorderCaptureSessionConfig where
  venues : List RecorderCaptureVenue
  channelMask : UInt16
  deriving DecidableEq

/-- The name under which venues are compared. -/
def venueIdentity (exchange market : Bytes) : Bytes := lower (exchange ++ asciiBytes "/" ++ market)

/-- The `identity` of a requested venue. -/
def RecorderCaptureVenue.identity (venue : RecorderCaptureVenue) : Bytes :=
  venueIdentity venue.exchange venue.market

/-- The identity of the venue that a source belongs to. -/
def sourceIdentity (s : BinaryMarketSource) : Bytes := venueIdentity s.venueText s.marketText

/-- The requested venue selects the source: it is its venue, with all its instruments or with this
one. -/
def RecorderCaptureVenue.Selects (venue : RecorderCaptureVenue) (s : BinaryMarketSource) : Prop :=
  sourceIdentity s = venue.identity ∧
    (venue.fullUniverse = true ∨ s.canonicalSymbolText ∈ venue.instruments)

instance (venue : RecorderCaptureVenue) (s : BinaryMarketSource) : Decidable (venue.Selects s) :=
  inferInstanceAs (Decidable (_ ∧ _))

/-- Some requested venue selects the source. -/
def RecorderCaptureSessionConfig.Selects (desired : RecorderCaptureSessionConfig)
    (s : BinaryMarketSource) : Prop := ∃ venue ∈ desired.venues, venue.Selects s

instance (desired : RecorderCaptureSessionConfig) (s : BinaryMarketSource) :
    Decidable (desired.Selects s) := inferInstanceAs (Decidable (∃ venue ∈ desired.venues, _))

/-! ## The plan -/

/-- `RecorderSubscriptionChange`. -/
structure RecorderSubscriptionChange where
  sourceId : ℕ
  channel : BinaryMarketChannel
  add : Bool
  deriving DecidableEq

/-- What is known of a requested venue while the directory is searched. -/
structure VenueMatch where
  wanted : List UInt16
  matchedVenue : Bool
  matchedSymbols : List Bool

/-- The innermost loop: a requested instrument is compared with the symbol of the source at `i`. -/
def matchInstrument (mask : UInt16) (symbol : Bytes) (i : ℕ) (found : VenueMatch)
    (instrument : Bytes × ℕ) : VenueMatch :=
  if instrument.1 = symbol then
    { found with
      matchedSymbols := found.matchedSymbols.set instrument.2 true
      wanted := found.wanted.set i mask }
  else found

/-- The loop over the directory for one requested venue. -/
def matchSource (mask : UInt16) (venue : RecorderCaptureVenue) (found : VenueMatch)
    (entry : BinaryMarketSource × ℕ) : VenueMatch :=
  if sourceIdentity entry.1 ≠ venue.identity then found
  else if venue.fullUniverse then
    { found with matchedVenue := true, wanted := found.wanted.set entry.2 mask }
  else
    venue.instruments.zipIdx.foldl (matchInstrument mask entry.1.canonicalSymbolText entry.2)
      { found with matchedVenue := true }

/-- The loop over the requested venues, with the identities seen and the channels wanted so far. -/
def selectVenue (mask : UInt16) (directory : List BinaryMarketSource)
    (state : List Bytes × List UInt16) (venue : RecorderCaptureVenue) :
    Except (Status × String) (List Bytes × List UInt16) :=
  if !safeToken venue.exchange 16 || !safeToken venue.market 16 || state.1.contains venue.identity ||
      (venue.fullUniverse && venue.instruments != []) ||
      (!venue.fullUniverse && venue.instruments == []) then
    .error (.invalidArgument, "invalid or duplicate dynamic venue selection")
  else
    let found := directory.zipIdx.foldl (matchSource mask venue)
      ⟨state.2, false, List.replicate venue.instruments.length false⟩
    if !found.matchedVenue || found.matchedSymbols.any (!·) then
      .error (.unimplemented, "requested instrument has no existing producer source identity; " ++
        "live catalog admission is required")
    else .ok (venue.identity :: state.1, found.wanted)

/-- The check of the directory entry at position `index`. -/
def validSourceIdentity (s : BinaryMarketSource) (index : ℕ) : Bool :=
  s.sourceId = index + 1 && validBinaryMarketText s.venue s.venueBytes &&
    validBinaryMarketText s.market s.marketBytes &&
    validBinaryMarketText s.canonicalSymbol s.canonicalSymbolBytes

/-- `planRecorderSubscriptionChanges` up to the point where `wanted` is complete. -/
def wantedChannels (desired : RecorderCaptureSessionConfig) (directory : List BinaryMarketSource) :
    Except (Status × String) (List UInt16) :=
  if desired.venues = [] ∨ 64 < desired.venues.length ∨ desired.channelMask = 0 ∨
      kBinaryMarketMaximumSources < directory.length then
    .error (.invalidArgument, "invalid bounded dynamic capture selection")
  else if desired.channelMask &&& ~~~7 ≠ 0 then
    .error (.unimplemented, "selected dynamic channel has no supported Parser control boundary")
  else if directory.zipIdx.any fun entry => !validSourceIdentity entry.1 entry.2 then
    .error (.corruptData, "invalid current Parser source identities")
  else
    (desired.venues.foldlM (selectVenue desired.channelMask directory)
      ([], List.replicate directory.length 0)).map Prod.snd

/-- The changes that one pass makes for a source. -/
def sourceChanges (add : Bool) (s : BinaryMarketSource) (wanted : UInt16) :
    List RecorderSubscriptionChange :=
  let differing := if add then wanted &&& ~~~s.availableChannelMask
    else s.availableChannelMask &&& ~~~wanted
  [1, 2, 3].filterMap fun c =>
    if differing &&& (1 <<< UInt16.ofNat (c - 1)) ≠ 0 then some ⟨s.sourceId, .ofCode c, add⟩ else none

/-- The two passes over the directory: removals and then additions. -/
def plannedChanges (directory : List BinaryMarketSource) (wanted : List UInt16) :
    List RecorderSubscriptionChange :=
  [false, true].flatMap fun add =>
    (directory.zip wanted).flatMap fun entry => sourceChanges add entry.1 entry.2

/-- `planRecorderSubscriptionChanges`. -/
def planRecorderSubscriptionChanges (desired : RecorderCaptureSessionConfig)
    (directory : List BinaryMarketSource) :
    Except (Status × String) (List RecorderSubscriptionChange) :=
  (wantedChannels desired directory).map (plannedChanges directory)

/-! ## What is wanted -/

section Wanted

variable {mask : UInt16} {venue : RecorderCaptureVenue}

theorem matchInstruments_wanted (symbol : Bytes) (i : ℕ) (instruments : List (Bytes × ℕ))
    (found : VenueMatch) :
    (instruments.foldl (matchInstrument mask symbol i) found).wanted =
      if symbol ∈ instruments.map Prod.fst then found.wanted.set i mask else found.wanted := by
  induction instruments generalizing found with
  | nil => simp
  | cons instrument instruments ih =>
    rw [List.foldl_cons, ih, matchInstrument, List.map_cons]
    by_cases heq : instrument.1 = symbol
    · simp [heq]
    · rw [if_neg heq, if_congr (List.mem_cons.trans (or_iff_right (Ne.symm heq))) rfl rfl]

theorem matchSource_wanted (found : VenueMatch) (entry : BinaryMarketSource × ℕ) :
    (matchSource mask venue found entry).wanted =
      if venue.Selects entry.1 then found.wanted.set entry.2 mask else found.wanted := by
  unfold matchSource
  by_cases hidentity : sourceIdentity entry.1 = venue.identity
  · by_cases hfull : venue.fullUniverse = true
    · simp [RecorderCaptureVenue.Selects, hidentity, hfull]
    · simp [RecorderCaptureVenue.Selects, hidentity, hfull, matchInstruments_wanted]
  · simp [RecorderCaptureVenue.Selects, hidentity]

theorem matchSources_wanted (directory : List BinaryMarketSource) (g : BinaryMarketSource → UInt16)
    (found : VenueMatch) (hfound : found.wanted = directory.map g) :
    (directory.zipIdx.foldl (matchSource mask venue) found).wanted =
      directory.map fun s => if venue.Selects s then mask else g s := by
  have hrun : ∀ (entries : List (BinaryMarketSource × ℕ)) (found : VenueMatch),
      (entries.foldl (matchSource mask venue) found).wanted =
        entries.foldl (fun w e => if venue.Selects e.1 then w.set e.2 mask else w) found.wanted := by
    intro entries
    induction entries with
    | nil => exact fun _ => rfl
    | cons entry entries ih =>
      intro found
      rw [List.foldl_cons, List.foldl_cons, ih, matchSource_wanted]
  rw [hrun, hfound]
  exact Lists.foldl_set_zipIdx venue.Selects mask g [] directory

theorem selectVenue_ok {directory : List BinaryMarketSource} {seen seen' : List Bytes}
    {wanted : List UInt16} {g : BinaryMarketSource → UInt16}
    (h : selectVenue mask directory (seen, directory.map g) venue = .ok (seen', wanted)) :
    wanted = directory.map fun s => if venue.Selects s then mask else g s := by
  unfold selectVenue at h
  split at h
  · cases h
  · dsimp only at h
    split at h
    · cases h
    · cases h
      exact matchSources_wanted directory g _ rfl

theorem selectVenues_ok {directory : List BinaryMarketSource} {venues : List RecorderCaptureVenue}
    {seen : List Bytes} {result : List Bytes × List UInt16} {g : BinaryMarketSource → UInt16}
    (h : venues.foldlM (selectVenue mask directory) (seen, directory.map g) = .ok result) :
    result.2 = directory.map fun s => if ∃ venue ∈ venues, venue.Selects s then mask else g s := by
  induction venues generalizing seen g with
  | nil =>
    cases h
    simp
  | cons venue venues ih =>
    rw [List.foldlM_cons] at h
    cases hvenue : selectVenue mask directory (seen, directory.map g) venue with
    | error e => rw [hvenue] at h; cases h
    | ok state =>
      obtain ⟨seen', wanted⟩ := state
      rw [hvenue, selectVenue_ok hvenue] at h
      rw [ih h]
      refine List.map_congr_left fun s _ => ?_
      by_cases hselects : venue.Selects s <;> simp [hselects]

end Wanted

/-- The channels that a selection wants of a source. -/
def RecorderCaptureSessionConfig.channelsOf (desired : RecorderCaptureSessionConfig)
    (s : BinaryMarketSource) : UInt16 := if desired.Selects s then desired.channelMask else 0

variable {directory : List BinaryMarketSource}

/-- What a completed search says: each source has its position as its number, only the three
channels with a control boundary are selected, and `wanted` is right. -/
theorem wantedChannels_ok {desired : RecorderCaptureSessionConfig} {wanted : List UInt16}
    (h : wantedChannels desired directory = .ok wanted) :
    desired.channelMask &&& ~~~7 = 0 ∧
      (∀ i (hi : i < directory.length), directory[i].sourceId = i + 1) ∧
      wanted = directory.map desired.channelsOf := by
  unfold wantedChannels at h
  split at h
  · cases h
  split at h
  · cases h
  rename_i hmask
  split at h
  · cases h
  rename_i hvalid
  refine ⟨not_not.mp hmask, fun i hi => ?_, ?_⟩
  · have hentry : (directory[i], i) ∈ directory.zipIdx :=
      List.mk_mem_zipIdx_iff_getElem?.mpr (List.getElem?_eq_getElem hi)
    have hchecked : validSourceIdentity directory[i] i = true := by
      by_contra hbad
      exact hvalid (List.any_eq_true.mpr ⟨_, hentry, by simpa using hbad⟩)
    simp only [validSourceIdentity, Bool.and_eq_true, decide_eq_true_eq] at hchecked
    exact hchecked.1.1.1
  · have hzero : List.replicate directory.length (0 : UInt16) = directory.map fun _ => 0 := by
      simp
    rw [hzero] at h
    cases hrun : desired.venues.foldlM (selectVenue desired.channelMask directory)
        ([], directory.map fun _ => 0) with
    | error e => rw [hrun] at h; cases h
    | ok result =>
      rw [hrun] at h
      cases h
      exact selectVenues_ok hrun

/-! ## Making the changes -/

namespace RecorderSubscriptionChange

def bit (change : RecorderSubscriptionChange) : UInt16 := binaryMarketChannelBit change.channel

/-- A change sets or clears its bit in a mask. -/
def changed (change : RecorderSubscriptionChange) (mask : UInt16) : UInt16 :=
  if change.add then mask ||| change.bit else mask &&& ~~~change.bit

/-- A change is made to the mask of its source. -/
def applyTo (change : RecorderSubscriptionChange) (s : BinaryMarketSource) : BinaryMarketSource :=
  if s.sourceId = change.sourceId then
    s.withAvailableChannelMask (change.changed s.availableChannelMask)
  else s

/-- The number of a source and of one of its bits. -/
def target (change : RecorderSubscriptionChange) : ℕ × ℕ :=
  (change.sourceId, binaryMarketChannelIndex change.channel)

def write (change : RecorderSubscriptionChange) : (ℕ × ℕ) × Bool := (change.target, change.add)

theorem has_bit {change : RecorderSubscriptionChange}
    (h : validBinaryMarketChannel change.channel = true) (b : ℕ) :
    has change.bit b = decide (b = change.target.2) := by
  have hcode : change.channel.code ≤ 8 := by
    simp only [validBinaryMarketChannel, Bool.and_eq_true, decide_eq_true_eq] at h
    exact h.2
  rw [bit, binaryMarketChannelBit, if_pos h]
  exact has_shiftLeft (by unfold binaryMarketChannelIndex; omega) b

theorem has_changed {change : RecorderSubscriptionChange}
    (h : validBinaryMarketChannel change.channel = true) (mask : UInt16) (b : ℕ) :
    has (change.changed mask) b = if b = change.target.2 then change.add else has mask b := by
  unfold changed
  cases change.add with
  | true =>
    rw [if_pos rfl, has_or, has_bit h]
    by_cases hb : b = change.target.2 <;> simp [hb]
  | false =>
    rw [if_neg Bool.false_ne_true, has_and_not, has_bit h]
    by_cases hb : b = change.target.2 <;> simp [hb]

end RecorderSubscriptionChange

/-- The source after some changes, in order. -/
def applyAll (changes : List RecorderSubscriptionChange) (s : BinaryMarketSource) :
    BinaryMarketSource := changes.foldl (fun s change => change.applyTo s) s

/-- The directory after some changes, in order. -/
def applyChanges (directory : List BinaryMarketSource) (changes : List RecorderSubscriptionChange) :
    List BinaryMarketSource :=
  changes.foldl (fun directory change => directory.map change.applyTo) directory

theorem applyChanges_eq (directory : List BinaryMarketSource)
    (changes : List RecorderSubscriptionChange) :
    applyChanges directory changes = directory.map (applyAll changes) := by
  induction changes generalizing directory with
  | nil => exact (List.map_id directory).symm
  | cons change changes ih =>
    calc applyChanges directory (change :: changes)
        = applyChanges (directory.map change.applyTo) changes := rfl
      _ = directory.map (applyAll (change :: changes)) := by rw [ih, List.map_map]; rfl

/-- Two directory entries that selections cannot tell apart. -/
structure SameIdentity (s s' : BinaryMarketSource) : Prop where
  sourceId : s'.sourceId = s.sourceId
  valid : ∀ index, validSourceIdentity s' index = validSourceIdentity s index
  identity : sourceIdentity s' = sourceIdentity s
  symbol : s'.canonicalSymbolText = s.canonicalSymbolText

namespace SameIdentity

theorem refl (s : BinaryMarketSource) : SameIdentity s s := ⟨rfl, fun _ => rfl, rfl, rfl⟩

theorem trans {a b c : BinaryMarketSource} (hab : SameIdentity a b) (hbc : SameIdentity b c) :
    SameIdentity a c where
  sourceId := hbc.sourceId.trans hab.sourceId
  valid index := (hbc.valid index).trans (hab.valid index)
  identity := hbc.identity.trans hab.identity
  symbol := hbc.symbol.trans hab.symbol

/-- A new mask leaves the identity of a source. -/
theorem withAvailableChannelMask (s : BinaryMarketSource) (mask : UInt16) :
    SameIdentity s (s.withAvailableChannelMask mask) := by
  have hbyte : ∀ {o}, 112 ≤ o →
      ByteLayout.field (s.withAvailableChannelMask mask).bytes o 1 = ByteLayout.field s.bytes o 1 :=
    fun h => s.field_withAvailableChannelMask_after mask h
  have htext : ∀ {o}, 112 ≤ o →
      (s.withAvailableChannelMask mask).bytes.drop o = s.bytes.drop o :=
    fun h => s.drop_withAvailableChannelMask mask h
  constructor
  · exact s.sourceId_withAvailableChannelMask mask
  · intro index
    simp only [validSourceIdentity, BinaryMarketSource.sourceId_withAvailableChannelMask,
      BinaryMarketSource.venue, BinaryMarketSource.market, BinaryMarketSource.canonicalSymbol,
      BinaryMarketSource.venueBytes, BinaryMarketSource.marketBytes,
      BinaryMarketSource.canonicalSymbolBytes, hbyte (by norm_num : 112 ≤ 125),
      hbyte (by norm_num : 112 ≤ 126), hbyte (by norm_num : 112 ≤ 127),
      htext (by norm_num : 112 ≤ 143), htext (by norm_num : 112 ≤ 159),
      htext (by norm_num : 112 ≤ 175)]
  · simp only [sourceIdentity, BinaryMarketSource.venueText, BinaryMarketSource.marketText,
      BinaryMarketSource.venue, BinaryMarketSource.market, BinaryMarketSource.venueBytes,
      BinaryMarketSource.marketBytes, hbyte (by norm_num : 112 ≤ 125),
      hbyte (by norm_num : 112 ≤ 126), htext (by norm_num : 112 ≤ 143),
      htext (by norm_num : 112 ≤ 159)]
  · simp only [BinaryMarketSource.canonicalSymbolText, BinaryMarketSource.canonicalSymbol,
      BinaryMarketSource.canonicalSymbolBytes, hbyte (by norm_num : 112 ≤ 127),
      htext (by norm_num : 112 ≤ 175)]

theorem applyTo (change : RecorderSubscriptionChange) (s : BinaryMarketSource) :
    SameIdentity s (change.applyTo s) := by
  unfold RecorderSubscriptionChange.applyTo
  split
  · exact withAvailableChannelMask s _
  · exact refl s

theorem applyAll (changes : List RecorderSubscriptionChange) (s : BinaryMarketSource) :
    SameIdentity s (applyAll changes s) := by
  induction changes generalizing s with
  | nil => exact refl s
  | cons change changes ih => exact (applyTo change s).trans (ih (change.applyTo s))

theorem venueSelects {s s' : BinaryMarketSource} (h : SameIdentity s s')
    (venue : RecorderCaptureVenue) : venue.Selects s' ↔ venue.Selects s := by
  unfold RecorderCaptureVenue.Selects
  rw [h.identity, h.symbol]

theorem channelsOf {s s' : BinaryMarketSource} (h : SameIdentity s s')
    (desired : RecorderCaptureSessionConfig) : desired.channelsOf s' = desired.channelsOf s := by
  refine if_congr (exists_congr fun venue => and_congr_right fun _ => h.venueSelects venue) rfl rfl

end SameIdentity

theorem wantedChannels_map (desired : RecorderCaptureSessionConfig)
    (directory : List BinaryMarketSource) {f : BinaryMarketSource → BinaryMarketSource}
    (hf : ∀ s, SameIdentity s (f s)) :
    wantedChannels desired (directory.map f) = wantedChannels desired directory := by
  have hvenue : selectVenue desired.channelMask (directory.map f) =
      selectVenue desired.channelMask directory := by
    funext state venue
    have hmatch : ∀ found entry, matchSource desired.channelMask venue found (Prod.map f id entry) =
        matchSource desired.channelMask venue found entry := by
      intro found entry
      simp only [matchSource, Prod.map_fst, Prod.map_snd, id, (hf entry.1).identity,
        (hf entry.1).symbol]
    simp only [selectVenue, List.zipIdx_map, List.foldl_map, hmatch]
  have hvalid : ((directory.map f).zipIdx.any fun entry => !validSourceIdentity entry.1 entry.2) =
      directory.zipIdx.any fun entry => !validSourceIdentity entry.1 entry.2 := by
    rw [List.zipIdx_map, List.any_map]
    refine congrArg (List.any _) (funext fun entry => ?_)
    simp only [Function.comp, Prod.map_fst, Prod.map_snd, id, (hf entry.1).valid]
  rw [wantedChannels, hvenue, hvalid, List.length_map, ← wantedChannels]

variable {changes : List RecorderSubscriptionChange}

theorem has_applyAll (hvalid : ∀ change ∈ changes, validBinaryMarketChannel change.channel = true)
    (s : BinaryMarketSource) (bits : ℕ × ℕ → Bool)
    (hbits : ∀ b, bits (s.sourceId, b) = has s.availableChannelMask b) (b : ℕ) :
    has (applyAll changes s).availableChannelMask b =
      writes (changes.map (·.write)) bits (s.sourceId, b) := by
  induction changes generalizing s bits with
  | nil => exact (hbits b).symm
  | cons change changes ih =>
    have hid := (SameIdentity.applyTo change s).sourceId
    rw [List.map_cons, writes_cons, ← hid]
    refine ih (fun c hc => hvalid c (List.mem_cons_of_mem _ hc)) (change.applyTo s) _ fun b => ?_
    have hchannel := hvalid change List.mem_cons_self
    rw [hid, Function.update_apply]
    unfold RecorderSubscriptionChange.applyTo
    by_cases hsource : s.sourceId = change.sourceId
    · rw [if_pos hsource, BinaryMarketSource.availableChannelMask_withAvailableChannelMask]
      have htarget : (s.sourceId, b) = change.write.1 ↔ b = change.target.2 := by
        simp [RecorderSubscriptionChange.write, RecorderSubscriptionChange.target, hsource]
      rw [if_congr htarget rfl rfl, hbits, RecorderSubscriptionChange.has_changed hchannel]
      rfl
    · have htarget : (s.sourceId, b) ≠ change.write.1 := fun h => hsource (congrArg Prod.fst h)
      rw [if_neg hsource, if_neg htarget, hbits]

theorem has_applyAll_of_forall_ne
    (hvalid : ∀ change ∈ changes, validBinaryMarketChannel change.channel = true)
    (s : BinaryMarketSource) {b : ℕ} (h : ∀ change ∈ changes, change.target ≠ (s.sourceId, b)) :
    has (applyAll changes s).availableChannelMask b = has s.availableChannelMask b := by
  rw [has_applyAll hvalid s (fun key => has s.availableChannelMask key.2) fun _ => rfl]
  refine writes_of_not_mem _ _ fun hmem => ?_
  rw [List.map_map, List.mem_map] at hmem
  obtain ⟨change, hchange, heq⟩ := hmem
  exact h change hchange heq

variable {change : RecorderSubscriptionChange}

theorem has_applyAll_of_mem
    (hvalid : ∀ change ∈ changes, validBinaryMarketChannel change.channel = true)
    (htargets : (changes.map (·.target)).Nodup) (s : BinaryMarketSource) {b : ℕ}
    (hchange : change ∈ changes) (h : change.target = (s.sourceId, b)) :
    has (applyAll changes s).availableChannelMask b = change.add := by
  rw [has_applyAll hvalid s (fun key => has s.availableChannelMask key.2) fun _ => rfl, ← h]
  refine writes_of_mem ?_ _ (List.mem_map_of_mem hchange)
  rwa [List.map_map]

/-! ## The planned changes -/

/-- A pass makes the changes of its kind to the bits that differ. -/
theorem mem_sourceChanges {add : Bool} {s : BinaryMarketSource} {wanted : UInt16} :
    change ∈ sourceChanges add s wanted ↔
      ∃ k < 3, change = ⟨s.sourceId, .ofCode (k + 1), add⟩ ∧
        has wanted k = add ∧ has s.availableChannelMask k = !add := by
  have hdiffering : ∀ k < 3, ((if add then wanted &&& ~~~s.availableChannelMask
      else s.availableChannelMask &&& ~~~wanted) &&& (1 <<< UInt16.ofNat k) ≠ 0 ↔
        has wanted k = add ∧ has s.availableChannelMask k = !add) := by
    intro k hk
    rw [ne_eq, and_eq_zero_iff, not_forall]
    simp only [has_shiftLeft (by omega : k < 16), Classical.not_imp, decide_eq_false_iff_not,
      not_not, exists_eq_right]
    cases add with
    | true => simp [-has_and, has_and_not]
    | false => simp [-has_and, has_and_not, and_comm]
  simp only [sourceChanges, List.mem_filterMap]
  constructor
  · rintro ⟨c, hc, hsome⟩
    obtain ⟨k, hk, rfl⟩ : ∃ k < 3, c = k + 1 := by
      simp only [List.mem_cons, List.not_mem_nil, or_false] at hc
      rcases hc with rfl | rfl | rfl
      exacts [⟨0, by omega⟩, ⟨1, by omega⟩, ⟨2, by omega⟩]
    rw [Nat.add_sub_cancel, Option.ite_none_right_eq_some] at hsome
    exact ⟨k, hk, (Option.some.inj hsome.2).symm, (hdiffering k hk).mp hsome.1⟩
  · rintro ⟨k, hk, rfl, hbits⟩
    refine ⟨k + 1, by simp; omega, ?_⟩
    rw [Nat.add_sub_cancel, if_pos ((hdiffering k hk).mpr hbits)]

@[simp]
theorem target_ofCode (sourceId k : ℕ) (add : Bool) :
    (⟨sourceId, .ofCode (k + 1), add⟩ : RecorderSubscriptionChange).target = (sourceId, k) := by
  simp [RecorderSubscriptionChange.target, binaryMarketChannelIndex]

theorem nodup_sourceChanges (add : Bool) (s : BinaryMarketSource) (wanted : UInt16) :
    ((sourceChanges add s wanted).map (·.target)).Nodup := by
  simp only [sourceChanges, List.filterMap_cons, List.filterMap_nil]
  split_ifs <;> simp [RecorderSubscriptionChange.target, binaryMarketChannelIndex]

theorem plannedChanges_map (directory : List BinaryMarketSource) (g : BinaryMarketSource → UInt16) :
    plannedChanges directory (directory.map g) =
      (directory.flatMap fun s => sourceChanges false s (g s)) ++
        directory.flatMap fun s => sourceChanges true s (g s) := by
  have hzip : directory.zip (directory.map g) = directory.map fun s => (s, g s) := by
    rw [List.zip_eq_zipWith, List.zipWith_map_right, List.zipWith_self]
  simp [plannedChanges, hzip, List.flatMap_map]

theorem mem_plannedChanges {g : BinaryMarketSource → UInt16} :
    change ∈ plannedChanges directory (directory.map g) ↔
      ∃ s ∈ directory, ∃ k < 3, change = ⟨s.sourceId, .ofCode (k + 1), has (g s) k⟩ ∧
        has s.availableChannelMask k = !has (g s) k := by
  simp only [plannedChanges_map, List.mem_append, List.mem_flatMap, mem_sourceChanges]
  constructor
  · rintro (⟨s, hs, k, hk, rfl, hw, ha⟩ | ⟨s, hs, k, hk, rfl, hw, ha⟩)
    · exact ⟨s, hs, k, hk, by rw [hw], by rw [ha, hw]⟩
    · exact ⟨s, hs, k, hk, by rw [hw], by rw [ha, hw]⟩
  · rintro ⟨s, hs, k, hk, rfl, ha⟩
    cases hw : has (g s) k with
    | false => exact .inl ⟨s, hs, k, hk, rfl, hw, by rw [ha, hw]⟩
    | true => exact .inr ⟨s, hs, k, hk, rfl, hw, by rw [ha, hw]⟩

theorem valid_planned {g : BinaryMarketSource → UInt16} :
    ∀ change ∈ plannedChanges directory (directory.map g),
      validBinaryMarketChannel change.channel = true := by
  intro change hchange
  obtain ⟨_, -, k, hk, rfl, -⟩ := mem_plannedChanges.mp hchange
  simp [validBinaryMarketChannel]
  omega

section Directory

variable {directory : List BinaryMarketSource} {g : BinaryMarketSource → UInt16}
  (hids : ∀ i (hi : i < directory.length), directory[i].sourceId = i + 1)

include hids

theorem nodup_sourceIds : (directory.map (·.sourceId)).Nodup := by
  have hrange : directory.map (·.sourceId) = List.range' 1 directory.length := by
    refine List.ext_getElem (by simp) fun i h _ => ?_
    rw [List.getElem_map, hids i (by simpa using h), List.getElem_range']
    omega
  rw [hrange]
  exact List.nodup_range'

theorem eq_of_sourceId_eq {s s' : BinaryMarketSource} (hs : s ∈ directory) (hs' : s' ∈ directory)
    (h : s.sourceId = s'.sourceId) : s = s' :=
  List.inj_on_of_nodup_map (nodup_sourceIds hids) hs hs' h

/-- No bit is the target of two planned changes. -/
theorem nodup_targets : ((plannedChanges directory (directory.map g)).map (·.target)).Nodup := by
  have hpass : ∀ add, ((directory.flatMap fun s => sourceChanges add s (g s)).map
      (·.target)).Nodup := by
    intro add
    rw [List.map_flatMap, List.nodup_flatMap]
    refine ⟨fun s _ => nodup_sourceChanges add s (g s), ?_⟩
    refine List.Pairwise.imp ?_ (List.pairwise_map.mp (nodup_sourceIds hids))
    intro s s' hne t ht ht'
    simp only [List.mem_map, mem_sourceChanges] at ht ht'
    obtain ⟨_, ⟨k, -, rfl, -⟩, rfl⟩ := ht
    obtain ⟨_, ⟨k', -, rfl, -⟩, heq⟩ := ht'
    exact hne (congrArg Prod.fst heq).symm
  rw [plannedChanges_map, List.map_append, List.nodup_append]
  refine ⟨hpass false, hpass true, ?_⟩
  -- a bit that is removed is unwanted and a bit that is added is wanted
  rintro _ hremoved _ hadded rfl
  simp only [List.mem_map, List.mem_flatMap, mem_sourceChanges] at hremoved hadded
  obtain ⟨_, ⟨s, hs, k, hk, rfl, hunwanted, -⟩, rfl⟩ := hremoved
  obtain ⟨_, ⟨s', hs', k', hk', rfl, hwanted, -⟩, heq⟩ := hadded
  rw [target_ofCode, target_ofCode, Prod.mk.injEq] at heq
  rw [eq_of_sourceId_eq hids hs' hs heq.1, heq.2, hunwanted] at hwanted
  cases hwanted

/-- After the planned changes a source has its wanted channels among the first three. -/
theorem has_planned {s : BinaryMarketSource} (hs : s ∈ directory) (b : ℕ) :
    has (applyAll (plannedChanges directory (directory.map g)) s).availableChannelMask b =
      if b < 3 then has (g s) b else has s.availableChannelMask b := by
  by_cases hdiffers : b < 3 ∧ has s.availableChannelMask b = !has (g s) b
  · rw [if_pos hdiffers.1]
    have hmem : (⟨s.sourceId, .ofCode (b + 1), has (g s) b⟩ : RecorderSubscriptionChange) ∈
        plannedChanges directory (directory.map g) :=
      mem_plannedChanges.mpr ⟨s, hs, b, hdiffers.1, rfl, hdiffers.2⟩
    exact has_applyAll_of_mem valid_planned (nodup_targets hids) s hmem (target_ofCode ..)
  · rw [has_applyAll_of_forall_ne valid_planned s]
    · by_cases hb : b < 3
      · rw [if_pos hb]
        exact Bool.not_eq_not.mp fun heq => hdiffers ⟨hb, heq⟩
      · rw [if_neg hb]
    · intro change hchange htarget
      obtain ⟨s', hs', k, hk, rfl, hbit⟩ := mem_plannedChanges.mp hchange
      rw [target_ofCode, Prod.mk.injEq] at htarget
      obtain rfl := eq_of_sourceId_eq hids hs' hs htarget.1
      obtain rfl := htarget.2
      exact hdiffers ⟨hk, hbit⟩

/-- A planned change flips its bit when its turn comes. -/
theorem planned_flips {before after : List RecorderSubscriptionChange}
    {change : RecorderSubscriptionChange}
    (hplan : plannedChanges directory (directory.map g) = before ++ change :: after) :
    change.bit ≠ 0 ∧ ∃ s ∈ directory, s.sourceId = change.sourceId ∧
      (change.applyTo (applyAll before s)).availableChannelMask =
        (applyAll before s).availableChannelMask ^^^ change.bit := by
  have hmem : change ∈ plannedChanges directory (directory.map g) := by simp [hplan]
  have hchannel := valid_planned change hmem
  obtain ⟨s, hs, k, hk, hchange, hbit⟩ := mem_plannedChanges.mp hmem
  have hid : change.sourceId = s.sourceId := by rw [hchange]
  have htarget : change.target = (s.sourceId, k) := by rw [hchange, target_ofCode]
  have hadd : change.add = has (g s) k := by rw [hchange]
  -- the bit is as it was in the directory, because no earlier change is about it
  have hsofar : has (applyAll before s).availableChannelMask k = !change.add := by
    rw [has_applyAll_of_forall_ne, hbit, hadd]
    · intro earlier hearlier
      exact valid_planned earlier (hplan ▸ List.mem_append_left _ hearlier)
    · intro earlier hearlier heq
      have hnodup := nodup_targets (g := g) hids
      rw [hplan, List.map_append, List.nodup_append] at hnodup
      exact hnodup.2.2 _ (List.mem_map_of_mem hearlier) _ (List.mem_map_of_mem List.mem_cons_self)
        (heq.trans htarget.symm)
  refine ⟨fun hzero => ?_, s, hs, hid.symm, eq_of_has fun b => ?_⟩
  · have hbits := RecorderSubscriptionChange.has_bit hchannel change.target.2
    simp [hzero] at hbits
  · rw [RecorderSubscriptionChange.applyTo, if_pos ((SameIdentity.applyAll before s).sourceId.trans
      hid.symm), BinaryMarketSource.availableChannelMask_withAvailableChannelMask,
      RecorderSubscriptionChange.has_changed hchannel, has_xor,
      RecorderSubscriptionChange.has_bit hchannel, htarget]
    by_cases hb : b = k
    · simp [hb, hsofar]
    · simp [hb]

theorem plannedChanges_again (hg : ∀ s s', SameIdentity s s' → g s' = g s) :
    plannedChanges (applyChanges directory (plannedChanges directory (directory.map g)))
      ((applyChanges directory (plannedChanges directory (directory.map g))).map g) = [] := by
  refine List.eq_nil_iff_forall_not_mem.mpr fun change hchange => ?_
  obtain ⟨s', hs', k, hk, -, hbit⟩ := mem_plannedChanges.mp hchange
  rw [applyChanges_eq, List.mem_map] at hs'
  obtain ⟨s, hs, rfl⟩ := hs'
  rw [has_planned hids hs, if_pos hk, hg s _ (SameIdentity.applyAll _ s)] at hbit
  exact Bool.not_ne_self _ hbit.symm

end Directory

theorem has_seven (b : ℕ) : has 7 b = decide (b < 3) := by
  by_cases hb : b < 16
  · have hall : ∀ b < 16, has 7 b = decide (b < 3) := by decide
    exact hall b hb
  · rw [eq_false_of_ne_true fun h => hb (lt_of_has h), decide_eq_false (by omega)]

theorem has_channelsOf_of_le {desired : RecorderCaptureSessionConfig}
    (hmask : desired.channelMask &&& ~~~7 = 0) (s : BinaryMarketSource) {b : ℕ} (hb : ¬b < 3) :
    has (desired.channelsOf s) b = false := by
  unfold RecorderCaptureSessionConfig.channelsOf
  split
  · refine eq_false_of_ne_true fun h => hb ?_
    simpa [has_seven] using within_iff.mp hmask b h
  · exact has_zero b

/-- What changes do to a directory that is to meet a selection. -/
structure Reaches (desired : RecorderCaptureSessionConfig) (directory : List BinaryMarketSource)
    (changes : List RecorderSubscriptionChange) : Prop where
  /-- Source by source, the first three bits of the mask are the selected channels and the others
  are as they were. -/
  masks : ∀ (i : ℕ) (s : BinaryMarketSource), directory[i]? = some s →
    ∃ s' : BinaryMarketSource, (applyChanges directory changes)[i]? = some s' ∧
      s'.availableChannelMask &&& 7 = (if desired.Selects s then desired.channelMask else 0) ∧
      s'.availableChannelMask &&& ~~~7 = s.availableChannelMask &&& ~~~7
  /-- Each change flips the bit of its channel in the directory that the changes before it leave. -/
  flips : ∀ before change after, changes = before ++ change :: after →
    change.bit ≠ 0 ∧ ∃ (i : ℕ) (s s' : BinaryMarketSource),
      (applyChanges directory before)[i]? = some s ∧
      (applyChanges directory (before ++ [change]))[i]? = some s' ∧
      s.sourceId = change.sourceId ∧
      s'.availableChannelMask = s.availableChannelMask ^^^ change.bit
  removalsFirst : ∃ removals additions, changes = removals ++ additions ∧
    (∀ change ∈ removals, change.add = false) ∧ ∀ change ∈ additions, change.add = true
  /-- Planning again finds nothing to change. -/
  settled : planRecorderSubscriptionChanges desired (applyChanges directory changes) = .ok []

/-- A plan that is made reaches its selection. -/
theorem plan_reaches_selection (desired : RecorderCaptureSessionConfig)
    (directory : List BinaryMarketSource) (changes : List RecorderSubscriptionChange)
    (h : planRecorderSubscriptionChanges desired directory = .ok changes) :
    Reaches desired directory changes := by
  unfold planRecorderSubscriptionChanges at h
  cases hwanted : wantedChannels desired directory with
  | error e => rw [hwanted] at h; cases h
  | ok wanted =>
    rw [hwanted] at h
    obtain ⟨hmask, hids, rfl⟩ := wantedChannels_ok hwanted
    cases h
    constructor
    · -- The channels that are selected are subscribed, and others stay as they are.
      intro i s hs
      have hmem : s ∈ directory := List.mem_of_getElem? hs
      refine ⟨_, by rw [applyChanges_eq, List.getElem?_map, hs, Option.map_some], ?_, ?_⟩
      · refine eq_of_has fun b => ?_
        rw [has_and, has_planned hids hmem, has_seven]
        by_cases hb : b < 3
        · simp [hb, RecorderCaptureSessionConfig.channelsOf]
        · have hnone := has_channelsOf_of_le hmask s hb
          unfold RecorderCaptureSessionConfig.channelsOf at hnone
          simp [hb, hnone]
      · refine eq_of_has fun b => ?_
        rw [has_and_not, has_and_not, has_planned hids hmem, has_seven]
        by_cases hb : b < 3 <;> simp [hb]
    · -- No change is idle.
      intro before change after hsplit
      obtain ⟨hbit, s, hs, hid, hflip⟩ := planned_flips hids hsplit
      obtain ⟨i, hi, rfl⟩ := List.mem_iff_getElem.mp hs
      refine ⟨hbit, i, _, _, ?_, ?_, ?_, hflip⟩
      · rw [applyChanges_eq, List.getElem?_map, List.getElem?_eq_getElem hi, Option.map_some]
      · rw [applyChanges_eq, List.getElem?_map, List.getElem?_eq_getElem hi, Option.map_some]
        simp [applyAll]
      · exact (SameIdentity.applyAll before _).sourceId.trans hid
    · -- Removals come first.
      refine ⟨_, _, plannedChanges_map directory desired.channelsOf, ?_, ?_⟩
      all_goals
        intro change hchange
        obtain ⟨_, -, hchange⟩ := List.mem_flatMap.mp hchange
        obtain ⟨_, -, rfl, -⟩ := mem_sourceChanges.mp hchange
        rfl
    · -- The selection does not look at the subscriptions, so that it is the same again.
      have hagain : wantedChannels desired (applyChanges directory
          (plannedChanges directory (directory.map desired.channelsOf))) =
            .ok (directory.map desired.channelsOf) := by
        rw [applyChanges_eq, wantedChannels_map _ _ (SameIdentity.applyAll _), hwanted]
      have hnothing := plannedChanges_again hids fun _ _ hid => hid.channelsOf desired
      rw [← (wantedChannels_ok hagain).2.2] at hnothing
      rw [planRecorderSubscriptionChanges, hagain, Except.map, hnothing]

/-- A venue in another spelling, with one instrument, and a channel that is not subscribed yet. -/
def tradesOnly : RecorderCaptureSessionConfig where
  venues := [⟨asciiBytes "B", asciiBytes "Futures", [asciiBytes "b"], false⟩]
  channelMask := 2

/-- The book ticker is removed and the trades are added. -/
theorem tradesOnly_reached :
    Reaches tradesOnly [smallSource] [⟨1, .bookTicker, false⟩, ⟨1, .trade, true⟩] :=
  plan_reaches_selection tradesOnly [smallSource] _ (by decide +kernel)

end HftRecorder.Capture
