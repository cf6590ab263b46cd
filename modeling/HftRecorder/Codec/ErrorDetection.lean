import HftRecorder.Codec.Crc32c
import HftRecorder.Lib.Tamper
import Mathlib.Logic.Function.Iterate

/-!
# What the checksum detects

One step of the table-driven checksum is eight shifts of the state with the byte added to it
(`crc32cByte_eq`). A shift is linear and injective, since the polynomial has its highest bit set, so
the step is injective in the state and in the byte. A string of any length with one byte changed
therefore has another checksum. So has a string with changes in four consecutive bytes: together they
are one word that is added to the state (`foldl_crc32cByte`).
-/

namespace HftRecorder.Codec

open ByteLayout

theorem and_one_cases (c : UInt32) : c &&& 1 = 0 ∨ c &&& 1 = 1 := by
  have hnat : (c &&& 1).toNat = c.toNat % 2 := (UInt32.toNat_and ..).trans (Nat.and_one_is_mod _)
  rcases Nat.mod_two_eq_zero_or_one c.toNat with h | h
  · exact .inl (UInt32.toNat_inj.mp (hnat.trans h))
  · exact .inr (UInt32.toNat_inj.mp (hnat.trans h))

theorem tableShift_even {c : UInt32} (h : c &&& 1 = 0) : tableShift c = c >>> 1 :=
  if_neg (not_ne_iff.mpr h)

theorem tableShift_odd {c : UInt32} (h : c &&& 1 = 1) : tableShift c = (c >>> 1) ^^^ kPoly :=
  if_pos (by rw [h]; decide)

theorem tableShift_xor (c d : UInt32) : tableShift (c ^^^ d) = tableShift c ^^^ tableShift d := by
  have hshift : (c ^^^ d) >>> 1 = (c >>> 1) ^^^ (d >>> 1) := by
    apply UInt32.toBitVec_inj.mp
    simp [BitVec.ushiftRight_xor_distrib]
  have hlow : (c ^^^ d) &&& 1 = (c &&& 1) ^^^ (d &&& 1) := by
    apply UInt32.toBitVec_inj.mp
    ext i
    simp [Bool.and_xor_distrib_right]
  rcases and_one_cases c with hc | hc <;> rcases and_one_cases d with hd | hd <;>
    rw [hc, hd] at hlow
  · rw [tableShift_even hlow, tableShift_even hc, tableShift_even hd, hshift]
  · rw [tableShift_odd hlow, tableShift_even hc, tableShift_odd hd, hshift, UInt32.xor_assoc]
  · rw [tableShift_odd hlow, tableShift_odd hc, tableShift_even hd, hshift, UInt32.xor_assoc,
      UInt32.xor_assoc, UInt32.xor_comm kPoly]
  · -- The polynomial is added twice.
    rw [tableShift_even hlow, tableShift_odd hc, tableShift_odd hd, hshift,
      UInt32.xor_assoc (c >>> 1), UInt32.xor_comm (d >>> 1), ← UInt32.xor_assoc kPoly,
      UInt32.xor_self, UInt32.zero_xor]

theorem iterate_tableShift_xor (n : ℕ) (c d : UInt32) :
    tableShift^[n] (c ^^^ d) = tableShift^[n] c ^^^ tableShift^[n] d := by
  induction n generalizing c d with
  | zero => rfl
  | succ n ih =>
    rw [Function.iterate_succ_apply, Function.iterate_succ_apply, Function.iterate_succ_apply,
      tableShift_xor, ih]

/-- The polynomial has its highest bit set, which the shifted state does not have. -/
theorem eq_zero_of_tableShift {c : UInt32} (h : tableShift c = 0) : c = 0 := by
  unfold tableShift at h
  split at h
  · have heq : c >>> 1 = kPoly := UInt32.xor_eq_zero_iff.mp h
    have hlt : (c >>> 1).toNat < 2 ^ 31 := by
      have := c.toNat_lt
      rw [UInt32.toNat_shiftRight]
      change c.toNat >>> 1 < _
      omega
    rw [heq] at hlt
    exact absurd hlt (by decide)
  · rename_i hlow
    have hlow' : c &&& 1 = 0 := not_ne_iff.mp hlow
    have h0 : c.toNat % 2 = 0 := by
      have := congrArg UInt32.toNat hlow'
      rw [UInt32.toNat_and] at this
      exact (Nat.and_one_is_mod _).symm.trans this
    have h1 : c.toNat >>> 1 = 0 := by
      have := congrArg UInt32.toNat h
      rw [UInt32.toNat_shiftRight] at this
      exact this
    apply UInt32.toNat_inj.mp
    change c.toNat = 0
    omega

theorem tableShift_injective : Function.Injective tableShift := by
  intro c d h
  have hzero : tableShift (c ^^^ d) = 0 := by rw [tableShift_xor, h, UInt32.xor_self]
  exact UInt32.xor_eq_zero_iff.mp (eq_zero_of_tableShift hzero)

theorem iterate_tableShift_high {c : UInt32} {m n : ℕ} (h : c.toNat = 256 * m) (hn : n ≤ 8) :
    (tableShift^[n] c).toNat = 2 ^ (8 - n) * m := by
  induction n with
  | zero => exact h
  | succ n ih =>
    have hprev := ih (by omega)
    have hpow : 2 ^ (8 - n) = 2 * 2 ^ (8 - (n + 1)) := by
      rw [← pow_succ']
      congr 1
      omega
    rw [Function.iterate_succ_apply']
    generalize tableShift^[n] c = d at hprev
    rw [hpow, Nat.mul_assoc] at hprev
    have hlow : d &&& 1 = 0 := by
      apply UInt32.toNat_inj.mp
      rw [UInt32.toNat_and]
      refine (Nat.and_one_is_mod _).trans ?_
      rw [hprev, Nat.mul_mod_right]
      rfl
    rw [tableShift_even hlow, UInt32.toNat_shiftRight, hprev]
    exact (Nat.shiftRight_eq_div_pow _ 1).trans (Nat.mul_div_cancel_left _ (Nat.two_pow_pos 1))

/-- The loop body of `crc32cUpdate` is eight shifts of the state with the byte added. -/
theorem crc32cByte_eq (c : UInt32) (b : UInt8) :
    crc32cByte c b = tableShift^[8] (c ^^^ b.toUInt32) := by
  have hhigh : ((c >>> 8) <<< 8).toNat = 256 * (c >>> 8).toNat := by
    have hlt : (c >>> 8).toNat < 2 ^ 24 := by
      have := c.toNat_lt
      rw [UInt32.toNat_shiftRight]
      change c.toNat >>> 8 < _
      omega
    rw [UInt32.toNat_shiftLeft]
    change (c >>> 8).toNat <<< 8 % 2 ^ 32 = _
    omega
  have hmoved : tableShift^[8] ((c >>> 8) <<< 8) = c >>> 8 := by
    apply UInt32.toNat_inj.mp
    rw [iterate_tableShift_high hhigh le_rfl, Nat.sub_self, pow_zero, Nat.one_mul]
  have hsplit : c ^^^ b.toUInt32 = ((c ^^^ b.toUInt32) &&& (0xFF : UInt32)) ^^^ ((c >>> 8) <<< 8) := by
    apply UInt32.toBitVec_inj.mp
    ext i hi
    have hmask : (255#32)[i] = decide (i < 8) := by
      rw [BitVec.getElem_eq_testBit_toNat]
      exact Nat.testBit_two_pow_sub_one 8 i
    rcases lt_or_ge i 8 with hlow | hge
    · simp [hmask, hlow]
    · have hbyte : b.toBitVec.getLsbD i = false := BitVec.getLsbD_of_ge _ _ hge
      simp [hmask, Nat.not_lt.mpr hge, hbyte, Nat.add_sub_cancel' hge, BitVec.getLsbD_eq_getElem hi]
  calc crc32cByte c b
    _ = tableShift^[8] ((c ^^^ b.toUInt32) &&& (0xFF : UInt32)) ^^^ (c >>> 8) := rfl
    _ = tableShift^[8] (((c ^^^ b.toUInt32) &&& (0xFF : UInt32)) ^^^ ((c >>> 8) <<< 8)) := by
      rw [iterate_tableShift_xor, hmoved]
    _ = tableShift^[8] (c ^^^ b.toUInt32) := by rw [← hsplit]

theorem crc32cByte_injective_state (b : UInt8) : Function.Injective fun c => crc32cByte c b := by
  intro c d h
  simp only [crc32cByte_eq] at h
  exact (UInt32.xor_left_inj _).mp (tableShift_injective.iterate 8 h)

theorem crc32cByte_injective_byte (c : UInt32) : Function.Injective (crc32cByte c) := by
  intro a b h
  simp only [crc32cByte_eq] at h
  have heq : a.toUInt32 = b.toUInt32 :=
    (UInt32.xor_right_inj _).mp (tableShift_injective.iterate 8 h)
  have hnat := congrArg UInt32.toNat heq
  rw [UInt8.toNat_toUInt32, UInt8.toNat_toUInt32] at hnat
  exact UInt8.toNat_inj.mp hnat

theorem crc32cUpdate_of_tampered {a b : Bytes} (h : Tampered a b) (seed : UInt32) :
    crc32cUpdate seed a ≠ crc32cUpdate seed b := by
  intro heq
  exact h.foldl_ne crc32cByte_injective_state crc32cByte_injective_byte _
    ((UInt32.xor_left_inj _).mp heq)

theorem crc32c_of_tampered {a b : Bytes} (h : Tampered a b) : crc32c a ≠ crc32c b :=
  crc32cUpdate_of_tampered h 0

/-! ## Windows of four bytes -/

theorem toUInt32_xor_shifted (b : UInt8) {n : ℕ} (hn : n < 2 ^ 24) :
    b.toUInt32 ^^^ UInt32.ofNat (256 * n) = UInt32.ofNat (b.toNat + 256 * n) := by
  apply UInt32.toNat_inj.mp
  have hb : b.toNat < 2 ^ 8 := b.toNat_lt
  have hdisjoint : b.toNat ^^^ 2 ^ 8 * n = 2 ^ 8 * n + b.toNat := by
    refine Nat.eq_of_testBit_eq fun j => ?_
    rw [Nat.testBit_xor, Nat.testBit_two_pow_mul, Nat.testBit_two_pow_mul_add n hb]
    by_cases hj : j < 8
    · simp [hj, Nat.not_le.mpr hj]
    · have hnone : b.toNat.testBit j = false :=
        Nat.testBit_lt_two_pow (hb.trans_le (Nat.pow_le_pow_right (by norm_num) (by omega)))
      simp [hj, hnone, Nat.not_lt.mp hj]
  rw [UInt32.toNat_xor, UInt8.toNat_toUInt32, UInt32.toNat_ofNat', UInt32.toNat_ofNat',
    Nat.mod_eq_of_lt (by omega), Nat.mod_eq_of_lt (by omega), Nat.add_comm]
  exact hdisjoint

/-- Up to four bytes are added to the state as one word and shifted together. -/
theorem foldl_crc32cByte {w : Bytes} (hw : w.length ≤ 4) (c : UInt32) :
    w.foldl crc32cByte c = tableShift^[8 * w.length] (c ^^^ UInt32.ofNat (ofLE w)) := by
  induction w generalizing c with
  | nil => exact (UInt32.xor_zero).symm
  | cons b w ih =>
    rw [List.length_cons] at hw
    have hsmall : ofLE w < 2 ^ 24 := calc
      ofLE w < 256 ^ w.length := ofLE_lt w
      _ ≤ 256 ^ 3 := Nat.pow_le_pow_right (by norm_num) (by omega)
      _ = 2 ^ 24 := by norm_num
    have hmoved : tableShift^[8] (UInt32.ofNat (256 * ofLE w)) = UInt32.ofNat (ofLE w) := by
      apply UInt32.toNat_inj.mp
      have hshifted : (UInt32.ofNat (256 * ofLE w)).toNat = 256 * ofLE w :=
        UInt32.toNat_ofNat_of_lt' (show 256 * ofLE w < 2 ^ 32 by omega)
      rw [iterate_tableShift_high hshifted le_rfl, UInt32.toNat_ofNat']
      omega
    calc (b :: w).foldl crc32cByte c
      _ = tableShift^[8 * w.length] (crc32cByte c b ^^^ UInt32.ofNat (ofLE w)) := ih (by omega) _
      _ = tableShift^[8 * w.length] (tableShift^[8] (c ^^^ b.toUInt32 ^^^
          UInt32.ofNat (256 * ofLE w))) := by
        rw [iterate_tableShift_xor 8, hmoved, crc32cByte_eq]
      _ = tableShift^[8 * (b :: w).length] (c ^^^ UInt32.ofNat (ofLE (b :: w))) := by
        rw [← Function.iterate_add_apply, UInt32.xor_assoc, toUInt32_xor_shifted b hsmall]
        rfl

/-- Windows of the same length of at most four bytes are told apart by what they make of a state. -/
theorem foldl_crc32cByte_ne {w w' : Bytes} (hw : w.length ≤ 4) (hlength : w'.length = w.length)
    (hne : w ≠ w') (c : UInt32) : w.foldl crc32cByte c ≠ w'.foldl crc32cByte c := by
  intro heq
  rw [foldl_crc32cByte hw, foldl_crc32cByte (hlength.trans_le hw), hlength] at heq
  have hwords : UInt32.ofNat (ofLE w) = UInt32.ofNat (ofLE w') :=
    (UInt32.xor_right_inj _).mp (tableShift_injective.iterate _ heq)
  have hlt : ∀ v : Bytes, v.length ≤ 4 → ofLE v < 2 ^ 32 := fun v hv => calc
    ofLE v < 256 ^ v.length := ofLE_lt v
    _ ≤ 256 ^ 4 := Nat.pow_le_pow_right (by norm_num) hv
    _ = 2 ^ 32 := by norm_num
  have hnat := congrArg UInt32.toNat hwords
  rw [UInt32.toNat_ofNat_of_lt' (hlt w hw),
    UInt32.toNat_ofNat_of_lt' (hlt w' (hlength.trans_le hw))] at hnat
  exact hne (eq_of_ofLE_eq hlength.symm hnat)

theorem crc32cUpdate_of_window {w w' : Bytes} (hw : w.length ≤ 4) (hlength : w'.length = w.length)
    (hne : w ≠ w') (seed : UInt32) (before after : Bytes) :
    crc32cUpdate seed (before ++ (w ++ after)) ≠ crc32cUpdate seed (before ++ (w' ++ after)) := by
  intro heq
  have hstates := (UInt32.xor_left_inj _).mp heq
  simp only [List.foldl_append] at hstates
  exact foldl_crc32cByte_ne hw hlength hne _
    (Tampered.foldl_injective crc32cByte_injective_state after hstates)

theorem crc32cUpdate_blocks (seed : UInt32) (blocks : List (List Bytes)) :
    blocks.flatten.foldl crc32cUpdate seed =
      blocks.foldl (fun crc block => crc32cUpdate crc block.flatten) seed := by
  have hblock : ∀ (block : List Bytes) (crc : UInt32),
      block.foldl crc32cUpdate crc = crc32cUpdate crc block.flatten := by
    intro block
    induction block with
    | nil => exact fun crc => (crc32cUpdate_nil crc).symm
    | cons record block ih =>
      intro crc
      rw [List.foldl_cons, ih, List.flatten_cons, crc32cUpdate_append]
  rw [List.foldl_flatten]
  exact congrArg (fun f => blocks.foldl f seed) (funext fun crc => funext fun block =>
    hblock block crc)

/-- The laws of the checksum: it can be continued, so record by record and block by block give the
same, and no change within four consecutive bytes goes unnoticed. -/
theorem crc32c_laws :
    (∀ (seed : UInt32) (a b : Bytes),
      crc32cUpdate (crc32cUpdate seed a) b = crc32cUpdate seed (a ++ b)) ∧
    (∀ (seed : UInt32) (blocks : List (List Bytes)),
      blocks.flatten.foldl crc32cUpdate seed =
        blocks.foldl (fun crc block => crc32cUpdate crc block.flatten) seed) ∧
    ∀ (seed : UInt32) (message message' : Bytes) (start : ℕ),
      message'.length = message.length → message ≠ message' →
      (∀ i, i < start ∨ start + 4 ≤ i → message[i]? = message'[i]?) →
        crc32cUpdate seed message ≠ crc32cUpdate seed message' := by
  refine ⟨crc32cUpdate_append, crc32cUpdate_blocks, ?_⟩
  intro seed message message' start hlength hne houtside
  have hbefore : message'.take start = message.take start := by
    refine List.ext_getElem? fun i => ?_
    rw [List.getElem?_take, List.getElem?_take]
    split
    · rename_i hi
      exact (houtside i (.inl hi)).symm
    · rfl
  have hafter : (message'.drop start).drop 4 = (message.drop start).drop 4 := by
    refine List.ext_getElem? fun i => ?_
    simp only [List.getElem?_drop]
    exact (houtside _ (.inr (by omega))).symm
  have hsplit : ∀ m : Bytes,
      m = m.take start ++ ((m.drop start).take 4 ++ (m.drop start).drop 4) := by
    intro m
    rw [List.take_append_drop, List.take_append_drop]
  have hsplit' := hsplit message'
  rw [hbefore, hafter] at hsplit'
  rw [hsplit message, hsplit']
  refine crc32cUpdate_of_window (by simp) (by simp [hlength]) (fun hwindow => hne ?_) seed _ _
  rw [hsplit message, hwindow, ← hsplit']

/-- The reference vector of the header comment with two bytes changed. -/
theorem crc32c_laws_reference :
    crc32c [0x31, 0x32, 0x33, 0x34, 0x35, 0x36, 0x37, 0x38, 0x39] ≠
      crc32c [0x31, 0x32, 0x30, 0x34, 0x35, 0x30, 0x37, 0x38, 0x39] := by
  refine crc32c_laws.2.2 0 _ _ 2 rfl (by decide) fun i hi => ?_
  obtain rfl | rfl | hi : i = 0 ∨ i = 1 ∨ 6 ≤ i := by omega
  · rfl
  · rfl
  · obtain ⟨k, rfl⟩ := Nat.exists_eq_add_of_le' hi
    rfl

end HftRecorder.Codec
