import HftRecorder.Lib.ByteLayout

/-!
# What the corpus takes from outside the repository

The corpus code calls two packages whose sources are not part of the repository. From `cxet` it
takes the native evidence type, which it only copies, compares, and passes to its validity
predicate, and some constants of the depth protocol. From `hft_compressor` it takes the byte-block
codec. `Platform` carries these as parameters.
-/

namespace HftRecorder.Corpus

open ByteLayout

/-- `hft_compressor::StreamType`, as far as the corpus names it. -/
inductive StreamType
  | unknown
  | trades
  | bookTicker
  deriving DecidableEq, Repr

/-- `hft_compressor::ByteBlockLayout`. -/
structure ByteBlockLayout where
  recordBytes : ℕ
  payloadOffset : ℕ
  timestampOffset : ℕ
  streamType : StreamType
  deriving DecidableEq, Repr

/-- The parts of `cxet` and `hft_compressor` that the corpus code uses. -/
structure Platform where
  /-- `cxet::api::market::validMarketNativeEvidence`, on the 56 bytes of the evidence. -/
  validMarketNativeEvidence : Bytes → Bool
  /-- `operator==` of `cxet::api::market::MarketNativeEvidence`. -/
  sameMarketNativeEvidence : Bytes → Bytes → Bool
  /-- The representation of a default `MarketNativeEvidence`. -/
  defaultMarketNativeEvidence : Bytes
  /-- `cxet::market::kMaximumDepthTransactionParts`. -/
  maximumDepthTransactionParts : ℕ
  /-- `cxet::market::kMaximumDepthSourceCapacity`. -/
  maximumDepthSourceCapacity : ℕ
  /-- `cxet::market::kMaximumDepthLevelsPerSide`. -/
  maximumDepthLevelsPerSide : ℕ
  /-- `cxet::market::DepthFailure::ConsumerBookRejected`, the last failure code. -/
  consumerBookRejected : ℕ
  /-- `cxet::market::DepthEventSourcePosition`. -/
  depthEventSourcePosition : UInt32
  /-- `cxet::market::validDepthSnapshotSequence` on the first, last, and previous update ids. -/
  validDepthSnapshotSequence : ℕ → ℕ → ℕ → Bool
  /-- `hft_compressor::byteBlockEncodeBound`. -/
  byteBlockEncodeBound : ByteBlockLayout → ℕ → ℕ
  /-- `hft_compressor::encodeByteBlock` into an output of the given capacity: the encoded bytes when
  the status is `Ok`. -/
  encodeByteBlock : ByteBlockLayout → Bytes → ℕ → Option Bytes
  /-- `hft_compressor::decodeByteBlock` into an output of the given capacity: the bytes written when
  the status is `Ok`. -/
  decodeByteBlock : ByteBlockLayout → Bytes → ℕ → Option Bytes

/-- A platform whose codec stores the records of a block as they are. -/
def Platform.stored : Platform where
  validMarketNativeEvidence _ := true
  sameMarketNativeEvidence a b := a = b
  defaultMarketNativeEvidence := List.replicate 56 0
  maximumDepthTransactionParts := 64
  maximumDepthSourceCapacity := 64
  maximumDepthLevelsPerSide := 1000
  consumerBookRejected := 8
  depthEventSourcePosition := 1
  validDepthSnapshotSequence _ _ _ := true
  byteBlockEncodeBound layout count := count * min layout.recordBytes 1024
  encodeByteBlock layout raw capacity :=
    if layout.recordBytes ≤ 1024 ∧ raw.length ≤ capacity then some raw else none
  decodeByteBlock _ encoded capacity := if encoded.length ≤ capacity then some encoded else none

end HftRecorder.Corpus
