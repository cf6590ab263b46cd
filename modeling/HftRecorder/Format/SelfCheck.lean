import HftRecorder.Codec.ErrorDetection
import HftRecorder.Format.Tables

/-!
# Headers that check themselves

The manifest, the headers, and the footers carry the checksum of their own representation with the
checksum's member set to zero. Reading a structure loses nothing of its representation
(`fields_ofBytes`), so that this checksum covers every byte, padding included, and no structure
passes its own check after a byte of it was changed.
-/

namespace HftRecorder.Corpus

open ByteLayout Codec

/-- A structure with a checksum member `stored` that must be `expected` does not pass after a byte
of it was changed. -/
def SelfChecked (α : Type) [Layout α] (stored expected : α → UInt32) : Prop :=
  ∀ b b' : Bytes, b.length = Layout.size α → Tampered b b' →
    stored (Layout.ofBytes b) = expected (Layout.ofBytes b) →
    stored (Layout.ofBytes b') ≠ expected (Layout.ofBytes b')

/-- A structure given by its members checks itself if they are read back as they stand in the
representation, and the checksum is taken with its own member, the `k`-th, set to zero. -/
theorem selfChecked_packed {α : Type} (widths : List ℕ) (fields : α → List ℕ)
    (ofFields : List ℕ → α) (h : ∀ a, (fields a).length = widths.length) (k : ℕ)
    (stored : α → UInt32) (cleared : α → α) (hk : widths.getD k 0 = 4)
    (hfields : ∀ b, fields (ofFields (unpack widths b)) = unpack widths b)
    (hstored : ∀ a, (fields a)[k]? = some (stored a).toNat)
    (hcleared : ∀ a, fields (cleared a) = (fields a).set k 0) :
    @SelfChecked α (packedLayout widths fields ofFields h) stored
      fun a => crc32c (pack widths (fields (cleared a))) := by
  intro b b' hlength htampered hb hb'
  have hlt : k < widths.length := by
    by_contra hge
    rw [List.getD_eq_default _ _ (Nat.le_of_not_lt hge)] at hk
    cases hk
  have hcrc : ∀ a a', Tampered a a' → (crc32c a).toNat ≠ (crc32c a').toNat :=
    fun a a' ha heq => crc32c_of_tampered ha (UInt32.toNat_inj.mp heq)
  -- The check in terms of the representation.
  have hcheck : ∀ b : Bytes, b.length = widths.sum →
      stored (ofFields (unpack widths b)) =
        crc32c (pack widths (fields (cleared (ofFields (unpack widths b))))) →
      field b (widths.take k).sum 4 = (crc32c (setField b (widths.take k).sum 4 0)).toNat := by
    intro b hb hstoredEq
    have hsome := hstored (ofFields (unpack widths b))
    rw [hfields, getElem?_unpack b hlt, hk] at hsome
    rw [hcleared, hfields, pack_set_unpack 0 hlt hb, hk] at hstoredEq
    rw [Option.some.inj hsome, hstoredEq]
  exact selfCheck_of_tampered hcrc _ 4 htampered (hcheck b hlength hb)
    (hcheck b' (htampered.length_eq.trans hlength) hb')

/-! ## Members are read back as they stand -/

theorem toNat_ofNat_take (b : Bytes) :
    (UInt32.ofNat (ofLE (b.take 4))).toNat = ofLE (b.take 4) := by
  have hlt : ofLE (b.take 4) < 256 ^ 4 :=
    (ofLE_lt _).trans_le (Nat.pow_le_pow_right (by norm_num) (List.length_take_le ..))
  exact UInt32.toNat_ofNat_of_lt' (hlt.trans_le (by decide))

theorem ofInt64_toInt64_take (b : Bytes) :
    ofInt64 (toInt64 (ofLE (b.take 8))) = ofLE (b.take 8) := by
  have hlt : ofLE (b.take 8) < 256 ^ 8 :=
    (ofLE_lt _).trans_le (Nat.pow_le_pow_right (by norm_num) (List.length_take_le ..))
  unfold ofInt64 toInt64
  split <;> omega

theorem BinaryMarketTableHeader.fields_ofFields_unpack (b : Bytes) :
    fields (ofFields (unpack widths b)) = unpack widths b := by
  simp only [widths, unpack, ofFields, fields, toNat_ofNat_take]

theorem BinaryMarketTableHeader.selfChecked :
    SelfChecked BinaryMarketTableHeader headerCrc32c crc :=
  selfChecked_packed widths fields ofFields (fun _ => rfl) 6 headerCrc32c
    (fun h => { h with headerCrc32c := 0 }) rfl fields_ofFields_unpack (fun _ => rfl) (fun _ => rfl)

theorem BinaryMarketSegmentHeader.fields_ofFields_unpack (b : Bytes) :
    fields (ofFields (unpack widths b)) = unpack widths b := by
  simp only [widths, unpack, ofFields, fields, toNat_ofNat_take, ofInt64_toInt64_take]

theorem BinaryMarketSegmentHeader.selfChecked :
    SelfChecked BinaryMarketSegmentHeader headerCrc32c crc :=
  selfChecked_packed widths fields ofFields (fun _ => rfl) 12 headerCrc32c
    (fun h => { h with headerCrc32c := 0 }) rfl fields_ofFields_unpack (fun _ => rfl) (fun _ => rfl)

theorem BinaryMarketBlockHeader.fields_ofFields_unpack (b : Bytes) :
    fields (ofFields (unpack widths b)) = unpack widths b := by
  simp only [widths, unpack, ofFields, fields, toNat_ofNat_take, BinaryMarketChannel.code_ofCode]

theorem BinaryMarketBlockHeader.selfChecked :
    SelfChecked BinaryMarketBlockHeader headerCrc32c crc :=
  selfChecked_packed widths fields ofFields (fun _ => rfl) 11 headerCrc32c
    (fun h => { h with headerCrc32c := 0 }) rfl fields_ofFields_unpack (fun _ => rfl) (fun _ => rfl)

theorem BinaryMarketSegmentFooter.fields_ofFields_unpack (b : Bytes) :
    fields (ofFields (unpack widths b)) = unpack widths b := by
  simp only [widths, unpack, ofFields, fields, toNat_ofNat_take, ofInt64_toInt64_take]

theorem BinaryMarketSegmentFooter.selfChecked :
    SelfChecked BinaryMarketSegmentFooter footerCrc32c crc :=
  selfChecked_packed widths fields ofFields (fun _ => rfl) 8 footerCrc32c
    (fun h => { h with footerCrc32c := 0 }) rfl fields_ofFields_unpack (fun _ => rfl) (fun _ => rfl)

theorem BinaryMarketStopReason.code_ofCode (n : ℕ) : (ofCode n).code = n := by
  unfold ofCode
  split <;> rfl

theorem BinaryMarketManifest.fields_ofFields_unpack (b : Bytes) :
    fields (ofFields (unpack widths b)) = unpack widths b := by
  simp only [widths, unpack, ofFields, fields, toNat_ofNat_take, ofInt64_toInt64_take,
    BinaryMarketStopReason.code_ofCode]

theorem BinaryMarketManifest.selfChecked : SelfChecked BinaryMarketManifest manifestCrc32c crc :=
  selfChecked_packed widths fields ofFields (fun _ => rfl) 24 manifestCrc32c
    (fun m => { m with manifestCrc32c := 0 }) rfl fields_ofFields_unpack (fun _ => rfl)
    (fun _ => rfl)

end HftRecorder.Corpus
