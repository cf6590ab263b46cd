import HftRecorder.Lib.ByteLayout

/-!
# Channels and the source catalogue

The channel and compatibility enumerations of `BinaryMarketCorpusFormat.hpp` and the catalogue entry
`BinaryMarketSource` with its validity predicate. The enumerations are stored as one byte that any
file can set to any value, so each has a constructor for the codes without a name. A catalogue entry
is its object representation, 272 bytes, with its members read at their offsets: entries are copied
whole into tables and payloads, padding included.
-/

namespace HftRecorder.Corpus

open ByteLayout

/-- `kBinaryMarketStoredChannelCount`: the market channels and the lifecycle channel. -/
def kBinaryMarketStoredChannelCount : ℕ := 9

/-- `kBinaryMarketChannelCount`. -/
def kBinaryMarketChannelCount : ℕ := 8

/-- `kBinaryMarketMaximumShards`. -/
def kBinaryMarketMaximumShards : ℕ := 64

/-- `kBinaryMarketMaximumSources`. -/
def kBinaryMarketMaximumSources : ℕ := 65536

/-- `BinaryMarketChannel`; `other` stands for the codes that the enumeration does not name. -/
inductive BinaryMarketChannel
  | bookTicker
  | trade
  | depth
  | liquidation
  | markPrice
  | indexPrice
  | funding
  | priceLimit
  | sourceLifecycle
  | other (code : ℕ)
  deriving DecidableEq, Repr

namespace BinaryMarketChannel

def ofCode : ℕ → BinaryMarketChannel
  | 1 => bookTicker
  | 2 => trade
  | 3 => depth
  | 4 => liquidation
  | 5 => markPrice
  | 6 => indexPrice
  | 7 => funding
  | 8 => priceLimit
  | 9 => sourceLifecycle
  | n => other n

def code : BinaryMarketChannel → ℕ
  | bookTicker => 1
  | trade => 2
  | depth => 3
  | liquidation => 4
  | markPrice => 5
  | indexPrice => 6
  | funding => 7
  | priceLimit => 8
  | sourceLifecycle => 9
  | other n => n

@[simp]
theorem code_ofCode (n : ℕ) : (ofCode n).code = n := by
  unfold ofCode
  split <;> rfl

theorem ofCode_code_ofCode (n : ℕ) : ofCode (ofCode n).code = ofCode n := by
  rw [code_ofCode]

end BinaryMarketChannel

open BinaryMarketChannel

/-- `validBinaryMarketChannel`. -/
def validBinaryMarketChannel (channel : BinaryMarketChannel) : Bool :=
  1 ≤ channel.code && channel.code ≤ 8

/-- `validBinaryMarketRecordChannel`. -/
def validBinaryMarketRecordChannel (channel : BinaryMarketChannel) : Bool :=
  validBinaryMarketChannel channel || channel = sourceLifecycle

/-- `binaryMarketChannelIndex`, for the channels with a code above zero. -/
def binaryMarketChannelIndex (channel : BinaryMarketChannel) : ℕ := channel.code - 1

/-- `binaryMarketChannelBit`. -/
def binaryMarketChannelBit (channel : BinaryMarketChannel) : UInt16 :=
  if validBinaryMarketChannel channel then 1 <<< UInt16.ofNat (binaryMarketChannelIndex channel) else 0

/-- `BinaryMarketCompatibility`. -/
inductive BinaryMarketCompatibility
  | unavailable
  | exactTraderReplay
  | recordedOnly
  | other (code : ℕ)
  deriving DecidableEq, Repr

namespace BinaryMarketCompatibility

/-- The compatibility stored as the given byte. -/
def ofCode : ℕ → BinaryMarketCompatibility
  | 0 => unavailable
  | 1 => exactTraderReplay
  | 2 => recordedOnly
  | n => other n

/-- The byte that a compatibility is stored as. -/
def code : BinaryMarketCompatibility → ℕ
  | unavailable => 0
  | exactTraderReplay => 1
  | recordedOnly => 2
  | other n => n

end BinaryMarketCompatibility

/-- `validBinaryMarketCompatibility`. -/
def validBinaryMarketCompatibility (value : BinaryMarketCompatibility) : Bool :=
  value = .unavailable || value = .exactTraderReplay || value = .recordedOnly

/-- `BinaryMarketSource`, one entry of the source catalogue, as its object representation. -/
structure BinaryMarketSource extends Raw 272
  deriving DecidableEq

instance : Layout BinaryMarketSource where
  size := 272
  toBytes s := s.bytes
  ofBytes b := ⟨Raw.ofBytes 272 b⟩
  InRange _ := True
  length_toBytes s := s.length_bytes
  ofBytes_toBytes s _ := by simp

namespace BinaryMarketSource

variable (s : BinaryMarketSource)

def sourceId : ℕ := field s.bytes 0 4
def canonicalSymbolId : ℕ := field s.bytes 4 4
def initialSourceGeneration : ℕ := field s.bytes 8 8
def tickSizeRaw : ℤ := toInt64 (field s.bytes 16 8)
def stepSizeRaw : ℤ := toInt64 (field s.bytes 24 8)
def contractBaseQtyRaw : ℤ := toInt64 (field s.bytes 32 8)
def canonicalStepSizeRaw : ℤ := toInt64 (field s.bytes 40 8)
def executionQuantityStepRaw : ℤ := toInt64 (field s.bytes 48 8)
/-- The three channel entries of `quantityConversion.kinds`. -/
def quantityKinds : List ℕ := [field s.bytes 56 1, field s.bytes 57 1, field s.bytes 58 1]
def quantityReserved : ℕ := field s.bytes 59 5
def canonicalBaseMultiplier : ℕ := field s.bytes 64 4
def nativeBaseMultiplier : ℕ := field s.bytes 68 4
def nativeContractBaseQtyRaw : ℤ := toInt64 (field s.bytes 72 8)
def nativeLotBaseQtyRaw : ℤ := toInt64 (field s.bytes 80 8)
def priceBasisQtyRaw : ℤ := toInt64 (field s.bytes 88 8)
def economicBaseAssetId : ℕ := field s.bytes 96 4
def quoteAssetId : ℕ := field s.bytes 100 4
def venueId : ℕ := field s.bytes 104 2
def directoryFlags : UInt16 := UInt16.ofNat (field s.bytes 106 2)
def configuredChannelMask : UInt16 := UInt16.ofNat (field s.bytes 108 2)
def availableChannelMask : UInt16 := UInt16.ofNat (field s.bytes 110 2)
def traderReplayChannelMask : UInt16 := UInt16.ofNat (field s.bytes 112 2)
def instrumentMetadataFlags : UInt32 := UInt32.ofNat (field s.bytes 116 4)
def marketRaw : ℕ := field s.bytes 120 1
def marketKindRaw : ℕ := field s.bytes 121 1
def assetDomainRaw : ℕ := field s.bytes 122 1
def priceScale : ℕ := field s.bytes 123 1
def quantityScale : ℕ := field s.bytes 124 1
def venueBytes : ℕ := field s.bytes 125 1
def marketBytes : ℕ := field s.bytes 126 1
def canonicalSymbolBytes : ℕ := field s.bytes 127 1
def nativeSymbolBytes : ℕ := field s.bytes 128 1
/-- The entry of `compatibility` for the market channel with the given index. -/
def compatibility (channel : ℕ) : BinaryMarketCompatibility := .ofCode (field s.bytes (129 + channel) 1)
def initiallyPresent : ℕ := field s.bytes 137 1
def reserved : ℕ := field s.bytes 138 5
def venue : Bytes := (s.bytes.drop 143).take 16
def market : Bytes := (s.bytes.drop 159).take 16
def canonicalSymbol : Bytes := (s.bytes.drop 175).take 48
def nativeSymbol : Bytes := (s.bytes.drop 223).take 48

/-- `source.initiallyPresent=0u`. -/
def withInitiallyPresent (n : ℕ) : BinaryMarketSource := ⟨s.toRaw.set 137 1 n (by norm_num)⟩

/-- `source.initialSourceGeneration=n`. -/
def withInitialSourceGeneration (n : ℕ) : BinaryMarketSource := ⟨s.toRaw.set 8 8 n (by norm_num)⟩

/-- `source.availableChannelMask=mask`. -/
def withAvailableChannelMask (mask : UInt16) : BinaryMarketSource :=
  ⟨s.toRaw.set 110 2 mask.toNat (by norm_num)⟩

/-- `source.traderReplayChannelMask=mask`. -/
def withTraderReplayChannelMask (mask : UInt16) : BinaryMarketSource :=
  ⟨s.toRaw.set 112 2 mask.toNat (by norm_num)⟩

/-- `source.compatibility[channel]=value`, for the eight market channels. -/
def withCompatibility (channel : Fin 8) (value : BinaryMarketCompatibility) : BinaryMarketSource :=
  ⟨s.toRaw.set (129 + channel) 1 value.code (by omega)⟩

end BinaryMarketSource

def asciiBytes (text : String) : Bytes := text.toList.map fun c => UInt8.ofNat c.toNat

/-- `validBinaryMarketText`: a non-empty text that fits and is followed by zeros only. -/
def validBinaryMarketText (value : Bytes) (bytes : ℕ) : Bool :=
  bytes != 0 && bytes ≤ value.length && (value.drop bytes).all (· = 0)

/-- `validBinaryMarketCode`: the market's name is the one of its raw code. -/
def validBinaryMarketCode (marketRaw : ℕ) (market : Bytes) (bytes : ℕ) : Bool :=
  validBinaryMarketText market bytes &&
    match marketRaw with
    | 1 => market.take bytes = asciiBytes "futures"
    | 2 => market.take bytes = asciiBytes "spot"
    | 3 => market.take bytes = asciiBytes "margin"
    | 4 => market.take bytes = asciiBytes "option"
    | 5 => market.take bytes = asciiBytes "inverse"
    | 6 => market.take bytes = asciiBytes "swap"
    | _ => false

/-- `validBinaryMarketQuantityConversion`. -/
def validBinaryMarketQuantityConversion (s : BinaryMarketSource) : Bool :=
  let known := s.quantityKinds.any (· ≠ 0)
  let contract := s.quantityKinds.any (· = 3)
  let lot := s.quantityKinds.any (· = 4)
  s.quantityReserved = 0 && 0 ≤ s.nativeContractBaseQtyRaw && 0 ≤ s.nativeLotBaseQtyRaw &&
    s.quantityKinds.all (· ≤ 4) &&
    if known then
      s.canonicalBaseMultiplier ≠ 0 && s.nativeBaseMultiplier ≠ 0 &&
        (if contract then 0 < s.nativeContractBaseQtyRaw else s.nativeContractBaseQtyRaw = 0) &&
        (if lot then 0 < s.nativeLotBaseQtyRaw else s.nativeLotBaseQtyRaw = 0)
    else
      s.canonicalBaseMultiplier = 0 && s.nativeBaseMultiplier = 0 &&
        s.nativeContractBaseQtyRaw = 0 && s.nativeLotBaseQtyRaw = 0

/-- The bits of `BinaryMarketDirectoryFlags` that `validBinaryMarketSource` reads by name. -/
def directoryBookTicker : UInt16 := 0x0001
def directoryTrade : UInt16 := 0x0002
def directoryTickSize : UInt16 := 0x0004
def directoryDepth : UInt16 := 0x0008
def directoryMarginEligibilityKnown : UInt16 := 0x0100
def directoryMarginEligible : UInt16 := 0x0200

/-- `kBinaryMarketKnownDirectoryFlags`: the eleven named bits. -/
def kBinaryMarketKnownDirectoryFlags : UInt16 := 0x07ff

/-- The bits of `BinaryMarketInstrumentMetadataFlags`. -/
def instrumentStepSize : UInt32 := 0x01
def instrumentContractBaseQty : UInt32 := 0x02
def instrumentCanonicalStepSize : UInt32 := 0x04
def instrumentExecutionQuantityStep : UInt32 := 0x08

/-- `kBinaryMarketInstrumentMetadataFlags`: the four named bits. -/
def kBinaryMarketInstrumentMetadataFlags : UInt32 := 0x0f

/-- The market channels that the directory flags of a source name. -/
def directoryChannels (flags : UInt16) : UInt16 :=
  (if flags &&& directoryBookTicker ≠ 0 then binaryMarketChannelBit bookTicker else 0) |||
    (if flags &&& directoryTrade ≠ 0 then binaryMarketChannelBit trade else 0) |||
    (if flags &&& directoryDepth ≠ 0 then binaryMarketChannelBit depth else 0)

/-- The channels that `directoryFlags` decides. -/
def directoryOwnedChannelMask : UInt16 :=
  binaryMarketChannelBit bookTicker ||| binaryMarketChannelBit trade ||| binaryMarketChannelBit depth

/-- The compatibility of one market channel agrees with the source's masks. -/
def validSourceChannel (s : BinaryMarketSource) (channel : ℕ) : Bool :=
  let bit : UInt16 := 1 <<< UInt16.ofNat channel
  validBinaryMarketCompatibility (s.compatibility channel) &&
    if s.availableChannelMask &&& bit = 0 then s.compatibility channel = .unavailable
    else if s.traderReplayChannelMask &&& bit ≠ 0 then s.compatibility channel = .exactTraderReplay
    else s.compatibility channel = .recordedOnly

/-- `validBinaryMarketSource`: the entry at position `index` of a catalogue is well formed. -/
def validBinaryMarketSource (s : BinaryMarketSource) (index : ℕ) : Bool :=
  s.sourceId = index + 1 && s.canonicalSymbolId ≠ 0 &&
    !(s.initialSourceGeneration = 0 && s.initiallyPresent ≠ 0) && s.venueId ≠ 0 &&
    (s.marketKindRaw = 1 || s.marketKindRaw = 2) && s.assetDomainRaw ≤ 2 &&
    s.priceScale ≤ 18 && s.quantityScale ≤ 18 &&
    validBinaryMarketText s.venue s.venueBytes &&
    validBinaryMarketCode s.marketRaw s.market s.marketBytes &&
    validBinaryMarketText s.canonicalSymbol s.canonicalSymbolBytes &&
    validBinaryMarketText s.nativeSymbol s.nativeSymbolBytes &&
    0 ≤ s.tickSizeRaw && 0 ≤ s.stepSizeRaw && 0 ≤ s.contractBaseQtyRaw && 0 ≤ s.priceBasisQtyRaw &&
    0 ≤ s.canonicalStepSizeRaw && 0 ≤ s.executionQuantityStepRaw &&
    validBinaryMarketQuantityConversion s &&
    s.economicBaseAssetId ≠ 0 && s.quoteAssetId ≠ 0 &&
    s.directoryFlags &&& ~~~kBinaryMarketKnownDirectoryFlags = 0 &&
    (decide (s.directoryFlags &&& directoryTickSize ≠ 0) == decide (0 < s.tickSizeRaw)) &&
    !(s.directoryFlags &&& directoryMarginEligible ≠ 0 &&
      s.directoryFlags &&& directoryMarginEligibilityKnown = 0) &&
    s.instrumentMetadataFlags &&& ~~~kBinaryMarketInstrumentMetadataFlags = 0 &&
    (decide (s.instrumentMetadataFlags &&& instrumentCanonicalStepSize ≠ 0) ==
      decide (0 < s.canonicalStepSizeRaw)) &&
    (decide (s.instrumentMetadataFlags &&& instrumentExecutionQuantityStep ≠ 0) ==
      decide (0 < s.executionQuantityStepRaw)) &&
    (decide (s.instrumentMetadataFlags &&& instrumentStepSize ≠ 0) == decide (0 < s.stepSizeRaw)) &&
    (decide (s.instrumentMetadataFlags &&& instrumentContractBaseQty ≠ 0) ==
      decide (0 < s.contractBaseQtyRaw)) &&
    s.configuredChannelMask &&& ~~~(0x00ff : UInt16) = 0 &&
    s.availableChannelMask &&& ~~~s.configuredChannelMask = 0 &&
    s.traderReplayChannelMask &&& ~~~s.availableChannelMask = 0 &&
    s.initiallyPresent ≤ 1 && s.reserved = 0 &&
    s.configuredChannelMask &&& directoryOwnedChannelMask = directoryChannels s.directoryFlags &&
    (s.quantityKinds.zipIdx.all fun (kind, channel) =>
      kind = 0 || s.configuredChannelMask &&& (1 <<< UInt16.ofNat channel) ≠ 0) &&
    (List.range kBinaryMarketChannelCount).all (validSourceChannel s)

/-- `sameBinaryMarketSourceIdentity`. -/
def sameBinaryMarketSourceIdentity (left right : BinaryMarketSource) : Bool :=
  left.sourceId = right.sourceId && left.canonicalSymbolId = right.canonicalSymbolId &&
    left.venueId = right.venueId && left.marketRaw = right.marketRaw &&
    left.venueBytes = right.venueBytes && left.marketBytes = right.marketBytes &&
    left.canonicalSymbolBytes = right.canonicalSymbolBytes &&
    left.nativeSymbolBytes = right.nativeSymbolBytes &&
    left.venue = right.venue && left.market = right.market &&
    left.canonicalSymbol = right.canonicalSymbol && left.nativeSymbol = right.nativeSymbol

/-- `sameBinaryMarketSourceRules`. -/
def sameBinaryMarketSourceRules (left right : BinaryMarketSource) : Bool :=
  left.tickSizeRaw = right.tickSizeRaw && left.stepSizeRaw = right.stepSizeRaw &&
    left.contractBaseQtyRaw = right.contractBaseQtyRaw &&
    left.priceBasisQtyRaw = right.priceBasisQtyRaw &&
    left.canonicalStepSizeRaw = right.canonicalStepSizeRaw &&
    left.executionQuantityStepRaw = right.executionQuantityStepRaw &&
    left.quantityKinds = right.quantityKinds && left.quantityReserved = right.quantityReserved &&
    left.canonicalBaseMultiplier = right.canonicalBaseMultiplier &&
    left.nativeBaseMultiplier = right.nativeBaseMultiplier &&
    left.nativeContractBaseQtyRaw = right.nativeContractBaseQtyRaw &&
    left.nativeLotBaseQtyRaw = right.nativeLotBaseQtyRaw &&
    left.instrumentMetadataFlags = right.instrumentMetadataFlags &&
    left.priceScale = right.priceScale && left.quantityScale = right.quantityScale &&
    left.economicBaseAssetId = right.economicBaseAssetId &&
    left.quoteAssetId = right.quoteAssetId &&
    left.assetDomainRaw = right.assetDomainRaw && left.marketKindRaw = right.marketKindRaw

end HftRecorder.Corpus
