import HftRecorder.Lib.ByteLayout
import Mathlib.Data.Nat.Digits.Lemmas

/-!
# Decimal numbers in a string of bytes

`decimal` writes a natural number in base ten, highest digit first and without leading zeros.
`scan` is the loop of a reader of such numbers that works in a word: it refuses a number above the
largest word before the word would overflow, and a second digit after a leading zero. The two are
inverse for every number that fits, whatever follows the number, as long as it is not a digit
(`scan_decimal`).
-/

namespace Decimal

open ByteLayout (Bytes)

def isDigit (b : UInt8) : Bool := 48 ≤ b && b ≤ 57

def digitByte (d : ℕ) : UInt8 := UInt8.ofNat (48 + d)

/-- The number that an ASCII digit stands for. -/
def digitValue (b : UInt8) : ℕ := b.toNat - 48

def decimal (n : ℕ) : Bytes :=
  if n = 0 then [digitByte 0] else (Nat.digits 10 n).reverse.map digitByte

def startsDigit : Bytes → Bool
  | [] => false
  | b :: _ => isDigit b

/-- The digits at the front of a string, read into a word whose largest value is `limit`; `value` is
what the digits before them amount to. -/
def scan (limit : ℕ) (leadingZero : Bool) : ℕ → Bytes → Option (ℕ × Bytes)
  | value, [] => some (value, [])
  | value, b :: rest =>
    if isDigit b then
      let digit := digitValue b
      if value > (limit - digit) / 10 then none
      else if leadingZero && startsDigit rest then none
      else scan limit leadingZero (value * 10 + digit) rest
    else some (value, b :: rest)

theorem toNat_digitByte {d : ℕ} (h : d < 10) : (digitByte d).toNat = 48 + d :=
  UInt8.toNat_ofNat_of_lt' (by simp only [UInt8.size]; omega)

theorem isDigit_digitByte {d : ℕ} (h : d < 10) : isDigit (digitByte d) = true := by
  simp only [isDigit, Bool.and_eq_true, decide_eq_true_eq, UInt8.le_iff_toNat_le, toNat_digitByte h,
    UInt8.reduceToNat]
  omega

theorem digitValue_digitByte {d : ℕ} (h : d < 10) : digitValue (digitByte d) = d := by
  rw [digitValue, toNat_digitByte h]
  omega

theorem isDigit_of_mem_decimal {n : ℕ} {b : UInt8} (h : b ∈ decimal n) : isDigit b = true := by
  unfold decimal at h
  split at h
  · rw [List.mem_singleton.mp h]
    exact isDigit_digitByte (by norm_num)
  · obtain ⟨d, hd, rfl⟩ := List.mem_map.mp h
    exact isDigit_digitByte (Nat.digits_lt_base (by norm_num) (List.mem_reverse.mp hd))

theorem decimal_ne_nil (n : ℕ) : decimal n ≠ [] := by
  unfold decimal
  split
  · simp
  · next hn => simp [Nat.digits_ne_nil_iff_ne_zero.mpr hn]

theorem head_decimal {n : ℕ} (hn : n ≠ 0) :
    ∃ d rest, decimal n = digitByte d :: rest ∧ 0 < d ∧ d < 10 := by
  have hne : Nat.digits 10 n ≠ [] := Nat.digits_ne_nil_iff_ne_zero.mpr hn
  have hlast := Nat.getLast_digit_ne_zero 10 hn
  have hlt : (Nat.digits 10 n).getLast hne < 10 :=
    Nat.digits_lt_base (by norm_num) (List.getLast_mem hne)
  refine ⟨(Nat.digits 10 n).getLast hne, (Nat.digits 10 n).dropLast.reverse.map digitByte, ?_,
    Nat.pos_of_ne_zero hlast, hlt⟩
  rw [decimal, if_neg hn]
  conv_lhs => rw [← List.dropLast_append_getLast hne]
  simp

/-- What a list of digits, highest first, amounts to after `value`. -/
def amount (value : ℕ) (digits : List ℕ) : ℕ := digits.foldl (fun v d => v * 10 + d) value

theorem amount_reverse_digits (n : ℕ) : amount 0 (Nat.digits 10 n).reverse = n := by
  have hfold : amount 0 (Nat.digits 10 n).reverse
      = (Nat.digits 10 n).foldr (fun d v => v * 10 + d) 0 := List.foldl_reverse ..
  calc amount 0 (Nat.digits 10 n).reverse
      = (Nat.digits 10 n).foldr (fun d v => d + 10 * v) 0 := by
        rw [hfold]
        congr 1
        funext d v
        ring
    _ = Nat.ofDigits 10 (Nat.digits 10 n) := by rw [Nat.ofDigits_eq_foldr]; rfl
    _ = n := Nat.ofDigits_digits 10 n

theorem le_amount (digits : List ℕ) (value : ℕ) : value ≤ amount value digits := by
  induction digits generalizing value with
  | nil => exact le_rfl
  | cons d ds ih => exact le_trans (by omega) (ih (value * 10 + d))

theorem scan_digits {limit : ℕ} {rest : Bytes} (hrest : startsDigit rest = false) (digits : List ℕ)
    (hdigits : ∀ d ∈ digits, d < 10) (value : ℕ) (hfits : amount value digits ≤ limit) :
    scan limit false value (digits.map digitByte ++ rest) = some (amount value digits, rest) := by
  induction digits generalizing value with
  | nil =>
    cases rest with
    | nil => rfl
    | cons b rest =>
      rw [List.map_nil, List.nil_append, scan, if_neg (by simpa [startsDigit] using hrest)]
      rfl
  | cons d ds ih =>
    have hd : d < 10 := hdigits d (List.mem_cons_self ..)
    have hstep : value * 10 + d ≤ limit := le_trans (le_amount ds _) hfits
    -- The test before the multiplication is the bound after it.
    have hroom : ¬value > (limit - d) / 10 := by omega
    simp only [List.map_cons, List.cons_append, scan, isDigit_digitByte hd, if_true,
      digitValue_digitByte hd, if_neg hroom, Bool.false_and, Bool.false_eq_true, if_false]
    exact ih (fun e he => hdigits e (List.mem_cons_of_mem d he)) _ hfits

theorem isDigit_iff {b : UInt8} : isDigit b = true ↔ 48 ≤ b.toNat ∧ b.toNat ≤ 57 := by
  simp [isDigit, UInt8.le_iff_toNat_le]

theorem digitValue_lt {b : UInt8} (h : isDigit b = true) : digitValue b < 10 := by
  rw [isDigit_iff] at h
  rw [digitValue]
  omega

def startsZero : Bytes → Bool
  | [] => false
  | b :: _ => b = 48

/-- A number that fits is read back, whatever follows it. -/
theorem scan_decimal {limit n : ℕ} (hn : n ≤ limit) {rest : Bytes}
    (hrest : startsDigit rest = false) :
    scan limit (startsZero (decimal n ++ rest)) 0 (decimal n ++ rest) = some (n, rest) := by
  by_cases h0 : n = 0
  · subst h0
    have hzero : decimal 0 = [48] := rfl
    have hdigit : isDigit 48 = true := rfl
    simp only [hzero, List.cons_append, List.nil_append, startsZero, decide_true, scan, hdigit,
      if_true, hrest, Bool.and_false, Bool.false_eq_true, if_false]
    rw [if_neg (by omega)]
    cases rest with
    | nil => rfl
    | cons b rest =>
      rw [scan, if_neg (by simpa [startsDigit] using hrest)]
      rfl
  · obtain ⟨d, tail, htail, hpos, hd⟩ := head_decimal h0
    have hzero : startsZero (decimal n ++ rest) = false := by
      have hne : digitByte d ≠ 48 := by
        intro h
        have hval : 48 + d = 48 := (toNat_digitByte hd).symm.trans (congrArg UInt8.toNat h)
        omega
      rw [htail]
      simpa [startsZero] using hne
    have hamount := amount_reverse_digits n
    rw [hzero, decimal, if_neg h0]
    rw [scan_digits hrest _ (fun d hd => Nat.digits_lt_base (by norm_num) (List.mem_reverse.mp hd)) 0
      (by rw [hamount]; exact hn), hamount]

end Decimal
