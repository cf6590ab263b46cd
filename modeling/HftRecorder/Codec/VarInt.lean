import HftRecorder.Writer.State
import Mathlib.Data.Nat.Digits.Lemmas

/-!
# Variable-length integers

`VarInt.cpp` and `ZigZag.hpp`: a 64-bit value as base-128 digits, lowest first, with the high bit of
every byte but the last set, and the signed values folded onto the unsigned ones. A run of bytes that
ends with the first byte below 128 is a group, and `digitsValue` is the number whose digits it has.
`varintDecode_eq_ok_iff` says all that decoding does: it accepts a group of at most ten bytes and
returns its number modulo `2^64`. What `varintEncode` writes is a group whose number is the value, so
decoding gives it back. A group of ten bytes has room for seventy bits and the decoder does not look
at the six that do not fit, so the number that it returns is the group's own unless the tenth byte is
above 1.
-/

namespace HftRecorder.Codec

open ByteLayout

/-! ## The functions -/

/-- The loop of `varintEncode` with room for the given number of bytes: the status and the bytes
written. -/
def varintEncodeLoop : ℕ → UInt64 → Status × Bytes
  | 0, _ => (.outOfRange, [])
  | room + 1, value =>
    let byte := (value &&& 0x7F).toUInt8
    let value := value >>> 7
    if value ≠ 0 then
      let (status, bytes) := varintEncodeLoop room value
      (status, (byte ||| 0x80) :: bytes)
    else (.ok, [byte])

/-- `varintEncode` into a buffer of `cap` bytes, or into a null pointer. -/
def varintEncode (value : UInt64) (null : Bool) (cap : ℕ) : Status × Bytes :=
  if null then (.invalidArgument, []) else varintEncodeLoop cap value

/-- The loop of `varintDecode`: the status, the number of bytes consumed, and the value. -/
def varintDecodeLoop (acc : UInt64) (shift consumed : ℕ) : Bytes → Status × ℕ × UInt64
  | [] => (.outOfRange, consumed, 0)
  | byte :: input =>
    let acc := acc ||| (byte &&& 0x7F).toUInt64 <<< UInt64.ofNat shift
    if byte &&& 0x80 = 0 then (.ok, consumed + 1, acc)
    else if shift + 7 ≥ 70 then (.invalidArgument, consumed + 1, 0)
    else varintDecodeLoop acc (shift + 7) (consumed + 1) input

/-- `varintDecode`, with no input for a null pointer. -/
def varintDecode : Option Bytes → Status × ℕ × UInt64
  | none => (.invalidArgument, 0, 0)
  | some input => varintDecodeLoop 0 0 0 input

/-- `zigzagEncode`. -/
def zigzagEncode (v : Int64) : UInt64 := ((v <<< 1) ^^^ (v >>> 63)).toUInt64

/-- `zigzagDecode`. -/
def zigzagDecode (u : UInt64) : Int64 := ((u >>> 1) ^^^ (-(u &&& 1).toInt64).toUInt64).toInt64

/-- The values written one behind the other into a buffer of `cap` bytes, if all of them fit. -/
def varintEncodeAll : ℕ → List UInt64 → Option Bytes
  | _, [] => some []
  | cap, value :: values =>
    match varintEncode value false cap with
    | (.ok, bytes) => (varintEncodeAll (cap - bytes.length) values).map (bytes ++ ·)
    | _ => none

/-- The first `count` values of an input, and the bytes behind them. -/
def varintDecodeAll : ℕ → Bytes → Option (List UInt64 × Bytes)
  | 0, input => some ([], input)
  | count + 1, input =>
    match varintDecode (some input) with
    | (.ok, consumed, value) =>
      (varintDecodeAll count (input.drop consumed)).map fun r => (value :: r.1, r.2)
    | _ => none

/-! ## Groups of digits -/

/-- The number whose base-128 digits, lowest first, are the low seven bits of the bytes. -/
def digitsValue (bytes : Bytes) : ℕ := Nat.ofDigits 128 (bytes.map (·.toNat % 128))

/-- The bytes `init` and `last` are one group. -/
structure IsGroup (init : Bytes) (last : UInt8) : Prop where
  continued : ∀ b ∈ init, 128 ≤ b.toNat
  terminated : last.toNat < 128

theorem digitsValue_cons (b : UInt8) (bytes : Bytes) :
    digitsValue (b :: bytes) = b.toNat % 128 + 128 * digitsValue bytes := by
  simp [digitsValue, Nat.ofDigits_cons]

theorem digitsValue_concat (bytes : Bytes) (b : UInt8) :
    digitsValue (bytes ++ [b]) = digitsValue bytes + 128 ^ bytes.length * (b.toNat % 128) := by
  simp [digitsValue, Nat.ofDigits_append]

theorem digitsValue_lt (bytes : Bytes) : digitsValue bytes < 128 ^ bytes.length := by
  have hlt := Nat.ofDigits_lt_base_pow_length (b := 128) (l := bytes.map (·.toNat % 128))
    (by decide) fun x hx => by
      obtain ⟨b, _, rfl⟩ := List.mem_map.mp hx
      exact Nat.mod_lt _ (by decide)
  rwa [List.length_map] at hlt

/-! ## Words as numbers -/

theorem toNat_low7 (b : UInt8) : (b &&& 0x7F).toUInt64.toNat = b.toNat % 128 := by
  rw [UInt8.toNat_toUInt64, UInt8.toNat_and]
  exact Nat.and_two_pow_sub_one_eq_mod b.toNat 7

theorem high_bit_clear_iff (b : UInt8) : b &&& 0x80 = 0 ↔ b.toNat < 128 := by
  have hall : ∀ i : Fin 256, UInt8.ofNat i.val &&& 0x80 = 0 ↔ i.val < 128 := by decide +kernel
  have hb := hall ⟨b.toNat, b.toNat_lt⟩
  rwa [UInt8.ofNat_toNat] at hb

theorem toNat_shiftRight_7 (v : UInt64) : (v >>> 7).toNat = v.toNat / 128 := by
  rw [UInt64.toNat_shiftRight]
  exact Nat.shiftRight_eq_div_pow v.toNat 7

theorem toNat_ne_zero_of_shiftRight_ne {v : UInt64} (h : v >>> 7 ≠ 0) : v.toNat / 128 ≠ 0 := by
  intro hzero
  apply h
  apply UInt64.toNat_inj.mp
  rw [toNat_shiftRight_7, hzero]
  rfl

theorem toNat_digit (v : UInt64) : (v &&& 0x7F).toUInt8.toNat = v.toNat % 128 := by
  have hand : (v &&& 0x7F).toNat = v.toNat % 128 := by
    rw [UInt64.toNat_and]
    exact Nat.and_two_pow_sub_one_eq_mod v.toNat 7
  rw [UInt64.toNat_toUInt8, hand]
  omega

theorem toNat_or_high_bit {b : UInt8} (h : b.toNat < 128) : (b ||| 0x80).toNat = b.toNat + 128 := by
  rw [UInt8.toNat_or, Nat.or_comm]
  have hor := Nat.two_pow_add_eq_or_of_lt (i := 7) h 1
  rw [Nat.mul_one] at hor
  exact hor.symm.trans (Nat.add_comm _ _)

/-- A digit goes in above the bits that are there, and what does not fit 64 bits is lost. -/
theorem toNat_or_shiftLeft {acc : UInt64} {k : ℕ} (hk : k < 64) (hacc : acc.toNat < 2 ^ k)
    (d : UInt64) :
    (acc ||| d <<< UInt64.ofNat k).toNat = (acc.toNat + 2 ^ k * d.toNat) % 2 ^ 64 := by
  have hpow : (2 : ℕ) ^ 64 = 2 ^ k * 2 ^ (64 - k) := by rw [← pow_add]; congr 1; omega
  have hshift : (d <<< UInt64.ofNat k).toNat = 2 ^ k * (d.toNat % 2 ^ (64 - k)) := by
    rw [UInt64.toNat_shiftLeft, UInt64.toNat_ofNat', Nat.mod_eq_of_lt (by omega : k < 2 ^ 64),
      Nat.mod_eq_of_lt hk, Nat.shiftLeft_eq, Nat.mul_comm, hpow, Nat.mul_mod_mul_left]
  have hdigit : d.toNat % 2 ^ (64 - k) < 2 ^ (64 - k) := Nat.mod_lt _ (Nat.two_pow_pos _)
  have hsum : acc.toNat + 2 ^ k * (d.toNat % 2 ^ (64 - k)) < 2 ^ 64 := by
    calc acc.toNat + 2 ^ k * (d.toNat % 2 ^ (64 - k))
        < 2 ^ k + 2 ^ k * (d.toNat % 2 ^ (64 - k)) := Nat.add_lt_add_right hacc _
      _ = 2 ^ k * (d.toNat % 2 ^ (64 - k) + 1) := by ring
      _ ≤ 2 ^ k * 2 ^ (64 - k) := Nat.mul_le_mul_left _ hdigit
      _ = 2 ^ 64 := hpow.symm
  have hmod : (acc.toNat + 2 ^ k * d.toNat) % 2 ^ 64
      = (acc.toNat + 2 ^ k * (d.toNat % 2 ^ (64 - k))) % 2 ^ 64 := by
    rw [← Nat.mul_mod_mul_left, ← hpow, Nat.add_mod_mod]
  rw [UInt64.toNat_or, hshift, Nat.or_comm, ← Nat.two_pow_add_eq_or_of_lt hacc, hmod,
    Nat.mod_eq_of_lt hsum, Nat.add_comm]

/-! ## Decoding -/

/-- The first byte of what begins with a group either ends the group or leads into its rest. -/
theorem exists_group_cons {b : UInt8} {input : Bytes} {P : Bytes → UInt8 → Bytes → Prop} :
    (∃ init last rest, b :: input = init ++ last :: rest ∧ IsGroup init last ∧ P init last rest) ↔
      if b.toNat < 128 then P [] b input
      else ∃ init last rest, input = init ++ last :: rest ∧ IsGroup init last ∧
        P (b :: init) last rest := by
  constructor
  · rintro ⟨init, last, rest, hinput, hgroup, h⟩
    cases init with
    | nil =>
      obtain ⟨rfl, rfl⟩ : b = last ∧ input = rest := by simpa using hinput
      rwa [if_pos hgroup.terminated]
    | cons b' init =>
      obtain ⟨rfl, rfl⟩ : b = b' ∧ input = init ++ last :: rest := by simpa using hinput
      rw [if_neg (not_lt.mpr (hgroup.continued b List.mem_cons_self))]
      exact ⟨init, last, rest, rfl,
        ⟨fun x hx => hgroup.continued x (List.mem_cons_of_mem _ hx), hgroup.terminated⟩, h⟩
  · split
    · rename_i hb
      exact fun h => ⟨[], b, input, rfl, ⟨by simp, hb⟩, h⟩
    · rename_i hb
      rintro ⟨init, last, rest, rfl, hgroup, h⟩
      exact ⟨b :: init, last, rest, rfl,
        ⟨List.forall_mem_cons.mpr ⟨not_lt.mp hb, hgroup.continued⟩, hgroup.terminated⟩, h⟩

/-- After `k` digits the loop accepts the groups with the digits that are left, and returns the
number of all digits modulo `2^64`. -/
theorem varintDecodeLoop_eq_ok_iff {k : ℕ} (hk : k ≤ 9) {acc : UInt64}
    (hacc : acc.toNat < 128 ^ k) (input : Bytes) (consumed : ℕ) (value : UInt64) :
    varintDecodeLoop acc (7 * k) k input = (.ok, consumed, value) ↔
      ∃ init last rest, input = init ++ last :: rest ∧ IsGroup init last ∧ init.length + k ≤ 9 ∧
        consumed = k + init.length + 1 ∧
        value = UInt64.ofNat (acc.toNat + 128 ^ k * digitsValue (init ++ [last])) := by
  induction input generalizing k acc with
  | nil => simp [varintDecodeLoop]
  | cons b input ih =>
    have hpow : (128 : ℕ) ^ k = 2 ^ (7 * k) := by rw [pow_mul]; rfl
    have hstep : (acc ||| (b &&& 0x7F).toUInt64 <<< UInt64.ofNat (7 * k)).toNat
        = (acc.toNat + 128 ^ k * (b.toNat % 128)) % 2 ^ 64 := by
      rw [toNat_or_shiftLeft (by omega) (hpow ▸ hacc), toNat_low7, hpow]
    rw [varintDecodeLoop, exists_group_cons]
    by_cases hb : b.toNat < 128
    · -- The group ends here.
      have hvalue : acc ||| (b &&& 0x7F).toUInt64 <<< UInt64.ofNat (7 * k)
          = UInt64.ofNat (acc.toNat + 128 ^ k * (b.toNat % 128)) := by
        apply UInt64.toNat_inj.mp
        rw [hstep, UInt64.toNat_ofNat']
      rw [if_pos ((high_bit_clear_iff b).mpr hb), if_pos hb, hvalue]
      simp [digitsValue, hk, eq_comm]
    rw [if_neg (mt (high_bit_clear_iff b).mp hb), if_neg hb]
    by_cases hlast : k = 9
    · -- A tenth byte with the high bit set.
      rw [if_pos (by omega)]
      refine iff_of_false (fun h => nomatch h) ?_
      rintro ⟨init, last, rest, -, -, hlength, -⟩
      rw [List.length_cons] at hlength
      omega
    · have hdigits : acc.toNat + 128 ^ k * (b.toNat % 128) < 128 ^ (k + 1) := by
        have hd : b.toNat % 128 + 1 ≤ 128 := Nat.mod_lt _ (by decide)
        calc acc.toNat + 128 ^ k * (b.toNat % 128)
            < 128 ^ k + 128 ^ k * (b.toNat % 128) := Nat.add_lt_add_right hacc _
          _ = 128 ^ k * (b.toNat % 128 + 1) := by ring
          _ ≤ 128 ^ k * 128 := Nat.mul_le_mul_left _ hd
          _ = 128 ^ (k + 1) := (pow_succ _ _).symm
      have hfits : (128 : ℕ) ^ (k + 1) ≤ 2 ^ 63 := by
        calc (128 : ℕ) ^ (k + 1) ≤ 128 ^ 9 := Nat.pow_le_pow_right (by decide) (by omega)
          _ = 2 ^ 63 := by norm_num
      rw [Nat.mod_eq_of_lt (by omega)] at hstep
      rw [if_neg (by omega), show 7 * k + 7 = 7 * (k + 1) by ring,
        ih (k := k + 1) (by omega) (by rw [hstep]; exact hdigits), hstep]
      refine exists₃_congr fun init last rest => ?_
      have hsplit : acc.toNat + 128 ^ k * digitsValue (b :: init ++ [last])
          = acc.toNat + 128 ^ k * (b.toNat % 128) + 128 ^ (k + 1) * digitsValue (init ++ [last]) := by
        rw [List.cons_append, digitsValue_cons, pow_succ]
        ring
      rw [hsplit, List.length_cons, Nat.add_assoc init.length, Nat.add_comm 1 k,
        Nat.add_right_comm k 1, ← Nat.add_assoc k]

theorem take_group (init : Bytes) (last : UInt8) (rest : Bytes) :
    (init ++ last :: rest).take (init.length + 1) = init ++ [last] := by
  rw [List.append_cons, List.take_left' (by simp)]

theorem varintDecode_eq_ok_iff (input : Bytes) (consumed : ℕ) (value : UInt64) :
    varintDecode (some input) = (.ok, consumed, value) ↔
      ∃ init last rest, input = init ++ last :: rest ∧ IsGroup init last ∧ init.length ≤ 9 ∧
        consumed = init.length + 1 ∧ value = UInt64.ofNat (digitsValue (init ++ [last])) := by
  have hzero : (0 : UInt64).toNat < 128 ^ 0 := by decide
  have h := varintDecodeLoop_eq_ok_iff (k := 0) (by omega) hzero input consumed value
  simpa [varintDecode] using h

/-! ## Encoding -/

variable {bytes : Bytes} {value : UInt64}

/-- What the encoder writes when it has room is a group whose number is the value, and its digits
above the first are those of a number that large. -/
theorem varintEncodeLoop_group {room : ℕ} (h : varintEncodeLoop room value = (.ok, bytes)) :
    ∃ init last, bytes = init ++ [last] ∧ IsGroup init last ∧
      digitsValue bytes = value.toNat ∧ 128 ^ init.length ≤ max 1 value.toNat := by
  induction room generalizing value bytes with
  | zero => cases h
  | succ room ih =>
    rw [varintEncodeLoop] at h
    have hshift := toNat_shiftRight_7 value
    have hdigit := toNat_digit value
    split at h
    · rename_i hne
      -- The digit goes first, with the high bit set, and what is left of the value follows it.
      have hpos := toNat_ne_zero_of_shiftRight_ne hne
      simp only [Prod.mk.injEq] at h
      obtain ⟨init, last, htail, hgroup, hvalue, hlength⟩ := ih (Prod.ext h.1 rfl)
      have hbyte := toNat_or_high_bit (b := (value &&& 0x7F).toUInt8) (by rw [hdigit]; omega)
      rw [← h.2]
      refine ⟨((value &&& 0x7F).toUInt8 ||| 0x80) :: init, last,
        congrArg (List.cons _) htail, ⟨?_, hgroup.terminated⟩, ?_, ?_⟩
      · intro x hx
        rcases List.mem_cons.mp hx with rfl | hx
        · omega
        · exact hgroup.continued x hx
      · rw [digitsValue_cons, hvalue, hbyte, hdigit, hshift]
        omega
      · rw [List.length_cons, pow_succ]
        omega
    · rename_i heq
      simp only [ne_eq, not_not] at heq
      have hzero : value.toNat / 128 = 0 := by rw [← hshift, heq]; rfl
      cases h
      refine ⟨[], (value &&& 0x7F).toUInt8, rfl, ⟨by simp, by rw [hdigit]; omega⟩, ?_, by simp⟩
      rw [digitsValue_cons, hdigit]
      simp only [digitsValue, List.map_nil, Nat.ofDigits_nil]
      omega

theorem varintEncodeLoop_ok {room : ℕ} (hroom : value.toNat < 128 ^ room) (hpos : 0 < room) :
    (varintEncodeLoop room value).1 = .ok := by
  induction room generalizing value with
  | zero => omega
  | succ room ih =>
    rw [varintEncodeLoop]
    split
    · rename_i hne
      have hnonzero := toNat_ne_zero_of_shiftRight_ne hne
      have hlt : (value >>> 7).toNat < 128 ^ room := by
        rw [toNat_shiftRight_7]
        exact Nat.div_lt_of_lt_mul (by rwa [pow_succ, Nat.mul_comm] at hroom)
      refine ih hlt (Nat.pos_of_ne_zero ?_)
      rintro rfl
      omega
    · rfl

theorem length_group_le {init : Bytes} (h : 128 ^ init.length ≤ max 1 value.toNat) :
    init.length ≤ 9 := by
  by_contra hlong
  have hvalue : value.toNat < 2 ^ 64 := value.toNat_lt
  have hpow : (128 : ℕ) ^ 10 ≤ 128 ^ init.length := Nat.pow_le_pow_right (by decide) (by omega)
  omega

variable {cap : ℕ}

theorem varintDecode_encode (h : varintEncode value false cap = (.ok, bytes)) (rest : Bytes) :
    varintDecode (some (bytes ++ rest)) = (.ok, bytes.length, value) := by
  obtain ⟨init, last, rfl, hgroup, hvalue, hlength⟩ := varintEncodeLoop_group h
  rw [varintDecode_eq_ok_iff]
  refine ⟨init, last, rest, by simp, hgroup, length_group_le hlength, by simp, ?_⟩
  rw [hvalue, UInt64.ofNat_toNat]

/-- The values written one behind the other are read back, and what follows them is left. -/
theorem varintDecodeAll_encodeAll {values : List UInt64}
    (h : varintEncodeAll cap values = some bytes) (rest : Bytes) :
    varintDecodeAll values.length (bytes ++ rest) = some (values, rest) := by
  induction values generalizing cap bytes with
  | nil =>
    cases h
    rfl
  | cons value values ih =>
    rw [varintEncodeAll] at h
    split at h
    · rename_i first hfirst
      obtain ⟨others, hothers, rfl⟩ := Option.map_eq_some_iff.mp h
      rw [List.append_assoc, List.length_cons, varintDecodeAll,
        varintDecode_encode hfirst (others ++ rest)]
      simp only [List.drop_left, ih hothers, Option.map_some]
    · cases h

theorem isSome_varintEncodeAll {values : List UInt64} (h : 10 * values.length ≤ cap) :
    (varintEncodeAll cap values).isSome := by
  induction values generalizing cap with
  | nil => rfl
  | cons value values ih =>
    rw [List.length_cons] at h
    have hroom : value.toNat < 128 ^ cap := by
      have hvalue : value.toNat < 2 ^ 64 := value.toNat_lt
      have hpow : (128 : ℕ) ^ 10 ≤ 128 ^ cap := Nat.pow_le_pow_right (by decide) (by omega)
      omega
    have hok : (varintEncode value false cap).1 = .ok := varintEncodeLoop_ok hroom (by omega)
    obtain ⟨bytes, hbytes⟩ : ∃ bytes, varintEncode value false cap = (.ok, bytes) :=
      ⟨_, Prod.ext hok rfl⟩
    obtain ⟨init, last, rfl, -, -, hlength⟩ := varintEncodeLoop_group hbytes
    have hinit := length_group_le hlength
    rw [varintEncodeAll, hbytes]
    simp only [Option.isSome_map]
    exact ih (by simp only [List.length_append, List.length_singleton]; omega)

/-! ## Signed values -/

theorem sshiftRight_63 (x : BitVec 64) :
    x.sshiftRight 63 = if x.msb then BitVec.allOnes 64 else 0#64 := by
  ext i hi
  have hbit : (if h : 63 + i < 64 then x[63 + i] else x.msb) = x.msb := by
    split
    · rename_i h
      obtain rfl : i = 0 := by omega
      rw [BitVec.msb_eq_getLsbD_last]
      rfl
    · rfl
  rw [BitVec.getElem_sshiftRight, hbit]
  cases x.msb
  · simp
  · rw [if_pos rfl, BitVec.getElem_allOnes]

theorem shiftLeft_1_and_1 (x : BitVec 64) : x <<< 1 &&& 1#64 = 0#64 := by
  ext i hi
  cases i <;> simp

/-- Folding a signed value and unfolding it gives it back. -/
theorem zigzagDecode_encode (v : Int64) : zigzagDecode (zigzagEncode v) = v := by
  apply Int64.toBitVec_inj.mp
  have hbits : (zigzagDecode (zigzagEncode v)).toBitVec
      = (v.toBitVec <<< 1 ^^^ v.toBitVec.sshiftRight 63) >>> 1 ^^^
        -((v.toBitVec <<< 1 ^^^ v.toBitVec.sshiftRight 63) &&& 1#64) := by
    simp [zigzagDecode, zigzagEncode]
  rw [hbits, sshiftRight_63]
  generalize v.toBitVec = x
  cases hsign : x.msb with
  | false =>
    rw [if_neg (by simp), BitVec.xor_zero, shiftLeft_1_and_1, BitVec.neg_zero, BitVec.xor_zero]
    ext i hi
    rcases Nat.lt_or_ge i 63 with hlt | hge
    · have hlt' : 1 + i < 64 := by omega
      simp [hlt']
    · obtain rfl : i = 63 := by omega
      rw [BitVec.msb_eq_getLsbD_last] at hsign
      simpa using hsign
  | true =>
    -- The doubled value is inverted, and its low bit is set.
    have hlow : ~~~(x <<< 1) &&& 1#64 = 1#64 := by
      ext i hi
      cases i <;> simp
    have hneg : -1#64 = BitVec.allOnes 64 := by decide
    rw [if_pos rfl, BitVec.xor_allOnes, hlow, hneg, BitVec.xor_allOnes]
    ext i hi
    rcases Nat.lt_or_ge i 63 with hlt | hge
    · have hlt' : 1 + i < 64 := by omega
      simp [hlt']
    · obtain rfl : i = 63 := by omega
      rw [BitVec.msb_eq_getLsbD_last] at hsign
      simpa using hsign

/-! ## Faithfulness -/

/-- A list of values is written when there is room for it, and is read back with exactly the bytes
written for it. -/
def RoundTrips (values : List UInt64) : Prop :=
  (∀ cap, 10 * values.length ≤ cap → (varintEncodeAll cap values).isSome) ∧
    ∀ cap bytes rest, varintEncodeAll cap values = some bytes →
      varintDecodeAll values.length (bytes ++ rest) = some (values, rest)

/-- A list of signed values that is folded, written, read, and unfolded comes back. -/
def SignedRoundTrips (values : List Int64) : Prop :=
  (∀ cap, 10 * values.length ≤ cap → (varintEncodeAll cap (values.map zigzagEncode)).isSome) ∧
    ∀ cap bytes rest, varintEncodeAll cap (values.map zigzagEncode) = some bytes →
      (varintDecodeAll values.length (bytes ++ rest)).map (fun r => (r.1.map zigzagDecode, r.2)) =
        some (values, rest)

/-- If decoding the input succeeds, the value is the number of the bytes consumed, which fits 64
bits. -/
def DecodesFaithfully (input : Bytes) : Prop :=
  ∀ consumed value, varintDecode (some input) = (.ok, consumed, value) →
    value.toNat = digitsValue (input.take consumed) ∧ digitsValue (input.take consumed) < 2 ^ 64

/-- The input starts with nine bytes that have the high bit set and a tenth between 2 and 127. -/
def tenthDigitTooLarge (input : Bytes) : Bool :=
  (input.take 9).all (fun b => 128 ≤ b.toNat) &&
    match input[9]? with
    | some last => 2 ≤ last.toNat && last.toNat < 128
    | none => false

theorem roundTrips (values : List UInt64) : RoundTrips values :=
  ⟨fun _ hcap => isSome_varintEncodeAll hcap, fun _ _ rest h => varintDecodeAll_encodeAll h rest⟩

theorem signedRoundTrips (values : List Int64) : SignedRoundTrips values := by
  refine ⟨fun cap hcap => isSome_varintEncodeAll (by rwa [List.length_map]), ?_⟩
  intro cap bytes rest h
  have hdecoded := varintDecodeAll_encodeAll h rest
  rw [List.length_map] at hdecoded
  rw [hdecoded, Option.map_some, List.map_map]
  have hid : (zigzagDecode ∘ zigzagEncode) = id := funext zigzagDecode_encode
  rw [hid, List.map_id]

/-- The number of a group of at most ten bytes fits 64 bits unless the tenth is above 1. -/
theorem digitsValue_group_lt_iff {init : Bytes} {last : UInt8} (hlast : last.toNat < 128)
    (hlength : init.length ≤ 9) :
    digitsValue (init ++ [last]) < 2 ^ 64 ↔ ¬ (init.length = 9 ∧ 2 ≤ last.toNat) := by
  have hlow := digitsValue_lt init
  rw [digitsValue_concat, Nat.mod_eq_of_lt hlast]
  by_cases hnine : init.length = 9
  · rw [hnine] at hlow ⊢
    omega
  · have hpow : (128 : ℕ) ^ (init.length + 1) ≤ 128 ^ 9 :=
      Nat.pow_le_pow_right (by decide) (by omega)
    have hhigh : 128 ^ init.length * last.toNat ≤ 128 ^ init.length * 127 :=
      Nat.mul_le_mul_left _ (by omega)
    rw [pow_succ] at hpow
    omega

theorem toNat_ofNat_eq_and_lt_iff (n : ℕ) :
    ((UInt64.ofNat n).toNat = n ∧ n < 2 ^ 64) ↔ n < 2 ^ 64 := by
  rw [UInt64.toNat_ofNat']
  exact ⟨And.right, fun h => ⟨Nat.mod_eq_of_lt h, h⟩⟩

theorem tenthDigitTooLarge_iff (input : Bytes) :
    tenthDigitTooLarge input ↔ ∃ init last rest, input = init ++ last :: rest ∧
      IsGroup init last ∧ init.length = 9 ∧ 2 ≤ last.toNat := by
  constructor
  · intro h
    rw [tenthDigitTooLarge, Bool.and_eq_true] at h
    obtain ⟨hall, htenth⟩ := h
    split at htenth
    · rename_i last hget
      obtain ⟨hlt, rfl⟩ := List.getElem?_eq_some_iff.mp hget
      simp only [Bool.and_eq_true, decide_eq_true_eq] at htenth
      refine ⟨input.take 9, input[9], input.drop 10, ?_, ⟨?_, htenth.2⟩, by simp; omega, htenth.1⟩
      · rw [← List.drop_eq_getElem_cons hlt, List.take_append_drop]
      · simpa using hall
    · cases htenth
  · rintro ⟨init, last, rest, rfl, hgroup, hlength, hlarge⟩
    rw [tenthDigitTooLarge, List.take_left' hlength, List.getElem?_append_right (by omega), hlength]
    simp [hgroup.terminated, hlarge]
    exact hgroup.continued

/-- The values of every list, signed ones among them, come back from what was written for them. The
bytes of an input are decoded to the number that they are the digits of, unless they are nine bytes
with the high bit set before one between 2 and 127. -/
theorem varint_faithful_iff (values : List UInt64) (signedValues : List Int64) (input : Bytes) :
    (RoundTrips values ∧ SignedRoundTrips signedValues ∧ DecodesFaithfully input) ↔
      ¬ tenthDigitTooLarge input := by
  have hround : (RoundTrips values ∧ SignedRoundTrips signedValues ∧ DecodesFaithfully input) ↔
      DecodesFaithfully input :=
    ⟨fun h => h.2.2, fun h => ⟨roundTrips values, signedRoundTrips signedValues, h⟩⟩
  rw [hround, tenthDigitTooLarge_iff]
  constructor
  · rintro h ⟨init, last, rest, rfl, hgroup, hlength, hlarge⟩
    have hdecoded := (varintDecode_eq_ok_iff (init ++ last :: rest) _ _).mpr
      ⟨init, last, rest, rfl, hgroup, hlength.le, rfl, rfl⟩
    have hfits := (h _ _ hdecoded).2
    rw [take_group, digitsValue_group_lt_iff hgroup.terminated hlength.le] at hfits
    exact hfits ⟨hlength, hlarge⟩
  · intro h consumed value hdecoded
    obtain ⟨init, last, rest, rfl, hgroup, hlength, rfl, rfl⟩ :=
      (varintDecode_eq_ok_iff _ _ _).mp hdecoded
    rw [take_group, toNat_ofNat_eq_and_lt_iff, digitsValue_group_lt_iff hgroup.terminated hlength]
    rintro ⟨hnine, hlarge⟩
    exact h ⟨init, last, rest, rfl, hgroup, hnine, hlarge⟩

/-- Nine bytes `0x80` and a byte `0x02` are the digits of `2^64`, and are decoded to 0. -/
theorem varintDecode_drops_tenth_digit :
    varintDecode (some (List.replicate 9 0x80 ++ [0x02])) = (.ok, 10, 0) ∧
      digitsValue (List.replicate 9 0x80 ++ [0x02]) = 2 ^ 64 ∧
      ¬ DecodesFaithfully (List.replicate 9 0x80 ++ [0x02]) := by
  have hdecoded : varintDecode (some (List.replicate 9 0x80 ++ [0x02])) = (.ok, 10, 0) := by
    decide +kernel
  have hvalue : digitsValue (List.replicate 9 0x80 ++ [0x02]) = 2 ^ 64 := by decide +kernel
  refine ⟨hdecoded, hvalue, fun h => ?_⟩
  have hfits := (h _ _ hdecoded).2
  rw [List.take_of_length_le (by simp), hvalue] at hfits
  exact absurd hfits (by decide)

end HftRecorder.Codec
