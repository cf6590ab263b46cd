import HftRecorder.Json.Text
import HftRecorder.Lib.Decimal
import Mathlib.Data.Rat.Cast.Order
import Mathlib.Data.List.DropRight
import Mathlib.Tactic.FieldSimp

/-!
# Prices and quantities of an imported history

`parseDecimalE8` of `BinanceVisionFormat.cpp` reads a decimal number and scales it by `10^8`, in
signed 64-bit arithmetic. An operation whose result does not fit is undefined there, so `int64` makes
it an outcome of its own, `Stop.overflow`, apart from the refusal of a text. Every loop is then
described by the digits at the front of the text (`wholeDigits_eq`, `fractionDigits_eq`), and the
reader by the two runs of digits that it finds (`magnitude_eq`).
-/

namespace HftRecorder.History

open ByteLayout (Bytes)
open Decimal Json

/-- `std::isspace` in the C locale. -/
def isSpace (c : UInt8) : Bool := c = 32 || (9 ≤ c && c ≤ 13)

/-- `trim`. -/
def trim (text : Bytes) : Bytes := (text.dropWhile isSpace).rdropWhile isSpace

/-- How a reader of numbers stops early. -/
inductive Stop
  /-- It returns `false`. -/
  | refused
  /-- The result of a signed operation does not fit. -/
  | overflow
  deriving DecidableEq

/-- `std::numeric_limits<std::int64_t>::max()`. -/
def int64Max : ℤ := 2 ^ 63 - 1

/-- The result of a signed 64-bit operation. -/
def int64 (z : ℤ) : Except Stop ℤ := if -2 ^ 63 ≤ z ∧ z ≤ int64Max then .ok z else .error .overflow

/-- `kScaleE8`. -/
def kScaleE8 : ℤ := 100000000

/-- The loop over the digits before the point. -/
def wholeDigits : ℤ → Bool → Bytes → Except Stop (ℤ × Bool × Bytes)
  | whole, anyWhole, [] => .ok (whole, anyWhole, [])
  | whole, anyWhole, b :: rest =>
    if isDigit b then do
      let room ← int64 (int64Max - digitValue b)
      if whole > room.tdiv 10 then throw .refused
      let shifted ← int64 (whole * 10)
      let next ← int64 (shifted + digitValue b)
      wholeDigits next true rest
    else .ok (whole, anyWhole, b :: rest)

/-- The loop over the digits after the point. -/
def fractionDigits : ℤ → ℕ → Bytes → Except Stop (ℤ × ℕ × Bytes)
  | frac, digits, [] => .ok (frac, digits, [])
  | frac, digits, b :: rest =>
    if isDigit b then do
      if digits ≥ 8 then throw .refused
      let shifted ← int64 (frac * 10)
      let next ← int64 (shifted + digitValue b)
      fractionDigits next (digits + 1) rest
    else .ok (frac, digits, b :: rest)

/-- What follows the digits before the point, up to the end of the text. -/
def fraction : Bytes → Except Stop (ℤ × ℕ)
  | [] => .ok (0, 0)
  | b :: rest =>
    if b = ch '.' then do
      let (frac, digits, rest) ← fractionDigits 0 0 rest
      if rest ≠ [] then throw .refused
      return (frac, digits)
    else throw .refused

/-- The loop that pads the fraction, with the number of its rounds. -/
def padFraction : ℕ → ℤ → Except Stop ℤ
  | 0, frac => .ok frac
  | rounds + 1, frac => do
    let next ← int64 (frac * 10)
    padFraction rounds next

/-- The end of `parseDecimalE8`: the two parts are put together. -/
def scale (whole frac : ℤ) (digits : ℕ) : Except Stop ℤ := do
  let padded ← padFraction (8 - digits) frac
  let room ← int64 (int64Max - padded)
  if whole > room.tdiv kScaleE8 then throw .refused
  let scaled ← int64 (whole * kScaleE8)
  int64 (scaled + padded)

/-- `parseDecimalE8` from the first character after the sign. -/
def magnitude (text : Bytes) : Except Stop ℤ := do
  let (whole, anyWhole, rest) ← wholeDigits 0 false text
  if !anyWhole then throw .refused
  let (frac, digits) ← fraction rest
  scale whole frac digits

/-- `parseDecimalE8`. -/
def parseDecimalE8 (text : Bytes) : Except Stop ℤ :=
  match trim text with
  | [] => .error .refused
  | b :: rest =>
    let negative := b = ch '-'
    let unsigned := if b = ch '+' ∨ b = ch '-' then rest else b :: rest
    if negative ∨ unsigned = [] then .error .refused else magnitude unsigned

/-! ## The loops -/

theorem int64_of_le {z : ℤ} (hlow : 0 ≤ z) (hhigh : z ≤ int64Max) : int64 z = .ok z :=
  if_pos ⟨by omega, hhigh⟩

theorem ok_bind {α β : Type} (a : α) (f : α → Except Stop β) : (Except.ok a >>= f) = f a := rfl

/-- The number that a run of digits stands for. -/
def digitsValue (digits : Bytes) : ℕ := amount 0 (digits.map digitValue)

/-- The loop over the digits of the whole part, in closed form. -/
theorem wholeDigits_eq (value : ℕ) (hvalue : (value : ℤ) ≤ int64Max) (anyWhole : Bool) (p : Bytes) :
    wholeDigits value anyWhole p =
      if (amount value ((p.takeWhile isDigit).map digitValue) : ℤ) ≤ int64Max then
        .ok ((amount value ((p.takeWhile isDigit).map digitValue) : ℕ), anyWhole || startsDigit p,
          p.dropWhile isDigit)
      else .error .refused := by
  induction p generalizing value anyWhole with
  | nil => simp [wholeDigits, startsDigit, amount, hvalue]
  | cons b rest ih =>
    by_cases hdigit : isDigit b = true
    · have hd := digitValue_lt hdigit
      have hroom : int64 (int64Max - digitValue b) = .ok (int64Max - digitValue b) :=
        int64_of_le (by unfold int64Max; omega) (by omega)
      have hdiv : (int64Max - (digitValue b : ℤ)).tdiv 10 = (int64Max - digitValue b) / 10 :=
        Int.tdiv_eq_ediv_of_nonneg (by unfold int64Max; omega)
      have hamount : amount value (((b :: rest).takeWhile isDigit).map digitValue) =
          amount (value * 10 + digitValue b) ((rest.takeWhile isDigit).map digitValue) := by
        rw [List.takeWhile_cons_of_pos hdigit]
        rfl
      rw [hamount, List.dropWhile_cons_of_pos hdigit, wholeDigits, if_pos hdigit]
      rw [hroom, ok_bind, hdiv]
      by_cases htoo : (value : ℤ) > (int64Max - digitValue b) / 10
      · -- the number is too large already, and further digits only make it larger
        have hle := le_amount ((rest.takeWhile isDigit).map digitValue) (value * 10 + digitValue b)
        rw [if_pos htoo, if_neg (by unfold int64Max at *; omega)]
        rfl
      · have hnext : ((value * 10 + digitValue b : ℕ) : ℤ) ≤ int64Max := by
          push_cast
          unfold int64Max at *
          omega
        push_cast at hnext
        rw [if_neg htoo, int64_of_le (by omega) (by omega), ok_bind, int64_of_le (by omega) hnext,
          ok_bind]
        have hrest := ih (value * 10 + digitValue b) (by exact_mod_cast hnext) true
        push_cast at hrest
        rw [hrest]
        simp [startsDigit, hdigit]
    · rw [wholeDigits, if_neg hdigit]
      simp [hdigit, startsDigit, amount, hvalue]

theorem amount_lt {digits : Bytes} (hdigits : ∀ d ∈ digits, isDigit d = true) {value k : ℕ}
    (hvalue : value < 10 ^ k) : amount value (digits.map digitValue) < 10 ^ (k + digits.length) := by
  induction digits generalizing value k with
  | nil => exact hvalue
  | cons b digits ih =>
    have hd := digitValue_lt (hdigits b List.mem_cons_self)
    have hnext : value * 10 + digitValue b < 10 ^ (k + 1) := by
      rw [pow_succ]
      omega
    have hrest := ih (fun d h => hdigits d (List.mem_cons_of_mem _ h)) hnext
    rwa [Nat.add_assoc, Nat.add_comm 1] at hrest

theorem isDigit_of_mem_takeWhile {p : Bytes} : ∀ d ∈ p.takeWhile isDigit, isDigit d = true :=
  fun _ h => List.mem_takeWhile_imp h

/-- The loop over the digits behind the point, in closed form. -/
theorem fractionDigits_eq (value : ℕ) {k : ℕ} (hk : k ≤ 8) (hvalue : value < 10 ^ k) (p : Bytes) :
    fractionDigits value k p =
      if k + (p.takeWhile isDigit).length ≤ 8 then
        .ok ((amount value ((p.takeWhile isDigit).map digitValue) : ℕ),
          k + (p.takeWhile isDigit).length, p.dropWhile isDigit)
      else .error .refused := by
  induction p generalizing value k with
  | nil => simp [fractionDigits, amount, hk]
  | cons b rest ih =>
    by_cases hdigit : isDigit b = true
    · have hd := digitValue_lt hdigit
      rw [fractionDigits, if_pos hdigit, List.takeWhile_cons_of_pos hdigit,
        List.dropWhile_cons_of_pos hdigit, List.length_cons]
      by_cases hfull : k ≥ 8
      · rw [if_pos hfull, if_neg (by omega)]
        rfl
      · have hnext : value * 10 + digitValue b < 10 ^ (k + 1) := by
          rw [pow_succ]
          omega
        have hsmall : 10 ^ (k + 1) ≤ 10 ^ 8 := Nat.pow_le_pow_right (by norm_num) (by omega)
        have hrest := ih (value * 10 + digitValue b) (by omega) hnext
        push_cast at hrest
        rw [if_neg hfull, int64_of_le (by omega) (by unfold int64Max; omega), ok_bind,
          int64_of_le (by omega) (by unfold int64Max; omega), ok_bind, hrest, Nat.add_assoc,
          Nat.add_comm 1]
        rfl
    · rw [fractionDigits, if_neg hdigit]
      simp [hdigit, amount, hk]

/-- The digits of an admissible end of the text. -/
def fractionOf : Bytes → Option Bytes
  | [] => some []
  | b :: rest => if b = ch '.' ∧ rest.all isDigit ∧ rest.length ≤ 8 then some rest else none

/-- The part behind the point, in closed form. -/
theorem fraction_eq (rest : Bytes) :
    fraction rest =
      match fractionOf rest with
      | some digits => .ok ((digitsValue digits : ℕ), digits.length)
      | none => .error .refused := by
  cases rest with
  | nil => rfl
  | cons b rest =>
    rw [fraction, fractionOf]
    by_cases hpoint : b = ch '.'
    · have hdigits := fractionDigits_eq 0 (by norm_num : 0 ≤ 8) (by norm_num) rest
      push_cast at hdigits
      rw [if_pos hpoint, hdigits]
      by_cases hall : rest.all isDigit = true
      · have htake : rest.takeWhile isDigit = rest :=
          List.takeWhile_eq_self_iff.mpr (List.all_eq_true.mp hall)
        have hdrop : rest.dropWhile isDigit = [] :=
          List.dropWhile_eq_nil_iff.mpr (List.all_eq_true.mp hall)
        rw [htake, hdrop, Nat.zero_add]
        by_cases hlength : rest.length ≤ 8
        · rw [if_pos hlength, if_pos ⟨hpoint, hall, hlength⟩]
          rfl
        · rw [if_neg hlength, if_neg fun h => hlength h.2.2]
          rfl
      · have hdrop : rest.dropWhile isDigit ≠ [] := fun h =>
          hall (List.all_eq_true.mpr (List.dropWhile_eq_nil_iff.mp h))
        have hnone : ¬(b = ch '.' ∧ rest.all isDigit = true ∧ rest.length ≤ 8) := fun h => hall h.2.1
        rw [if_neg hnone]
        by_cases hlength : 0 + (rest.takeWhile isDigit).length ≤ 8
        · rw [if_pos hlength]
          change (if rest.dropWhile isDigit ≠ [] then _ else _) = _
          rw [if_pos hdrop]
          rfl
        · rw [if_neg hlength]
          rfl
    · rw [if_neg hpoint, if_neg fun h => hpoint h.1]
      rfl

theorem padFraction_eq (rounds value : ℕ) (h : value * 10 ^ rounds ≤ 10 ^ 8) :
    padFraction rounds value = .ok ((value * 10 ^ rounds : ℕ) : ℤ) := by
  induction rounds generalizing value with
  | zero => simp [padFraction]
  | succ rounds ih =>
    have hpow : value * 10 * 10 ^ rounds = value * 10 ^ (rounds + 1) := by ring
    have hnext : value * 10 ≤ 10 ^ 8 := by
      have := Nat.le_mul_of_pos_right (value * 10) (Nat.pow_pos (n := rounds) (by norm_num : 0 < 10))
      omega
    have hrest := ih (value * 10) (hpow ▸ h)
    push_cast at hrest
    rw [padFraction, int64_of_le (by omega) (by unfold int64Max; omega), ok_bind, hrest, pow_succ]
    push_cast
    ring_nf

theorem fractionOf_eq_some_iff {rest digits : Bytes} :
    fractionOf rest = some digits ↔
      (∃ point, rest = point ++ digits ∧ (point = [] ∧ digits = [] ∨ point = [ch '.'])) ∧
        digits.length ≤ 8 ∧ ∀ d ∈ digits, isDigit d = true := by
  constructor
  · intro h
    cases rest with
    | nil =>
      cases h
      exact ⟨⟨[], rfl, .inl ⟨rfl, rfl⟩⟩, by simp⟩
    | cons b rest =>
      rw [fractionOf, Option.ite_none_right_eq_some] at h
      obtain ⟨⟨rfl, hall, hlength⟩, heq⟩ := h
      cases heq
      exact ⟨⟨[ch '.'], rfl, .inr rfl⟩, hlength, List.all_eq_true.mp hall⟩
  · rintro ⟨⟨point, rfl, ⟨rfl, rfl⟩ | rfl⟩, hlength, hdigits⟩
    · rfl
    · exact if_pos ⟨rfl, List.all_eq_true.mpr hdigits, hlength⟩

/-- Scaling to eight digits behind the point fails only on overflow. -/
theorem scale_eq {whole frac digits : ℕ} (hdigits : digits ≤ 8) (hfrac : frac < 10 ^ digits) :
    scale whole frac digits =
      if ((whole * 10 ^ 8 + frac * 10 ^ (8 - digits) : ℕ) : ℤ) ≤ int64Max then
        .ok (whole * 10 ^ 8 + frac * 10 ^ (8 - digits) : ℕ)
      else .error .refused := by
  have hpadded : frac * 10 ^ (8 - digits) < 10 ^ 8 := calc
    frac * 10 ^ (8 - digits) < 10 ^ digits * 10 ^ (8 - digits) :=
      Nat.mul_lt_mul_of_pos_right hfrac (Nat.pow_pos (by norm_num))
    _ = 10 ^ 8 := by rw [← pow_add, Nat.add_sub_cancel' hdigits]
  rw [scale, padFraction_eq _ _ hpadded.le]
  generalize frac * 10 ^ (8 - digits) = padded at hpadded
  have hroom : int64 (int64Max - padded) = .ok (int64Max - padded) :=
    int64_of_le (by unfold int64Max; omega) (by omega)
  have hdiv : (int64Max - (padded : ℤ)).tdiv kScaleE8 = (int64Max - padded) / 100000000 := by
    rw [Int.tdiv_eq_ediv_of_nonneg (by unfold int64Max; omega), kScaleE8]
  have hscaled : ((whole * 10 ^ 8 + padded : ℕ) : ℤ) = whole * 100000000 + padded := by omega
  rw [hscaled, ok_bind, hroom, ok_bind]
  by_cases htoo : (whole : ℤ) > (int64Max - padded).tdiv kScaleE8
  · rw [if_pos htoo, if_neg (by rw [hdiv] at htoo; omega)]
    rfl
  · have hfits : (whole * 100000000 + padded : ℤ) ≤ int64Max := by
      rw [hdiv] at htoo
      omega
    rw [if_neg htoo, if_pos hfits]
    change int64 (whole * 100000000) >>= _ = _
    rw [int64_of_le (by omega) (by omega), ok_bind]
    exact int64_of_le (by omega) hfits

/-- The scaled number of two runs of digits. -/
def scaledE8 (whole fraction : Bytes) : ℕ :=
  digitsValue whole * 10 ^ 8 + digitsValue fraction * 10 ^ (8 - fraction.length)

theorem digitsValue_lt {digits : Bytes} (hdigits : ∀ d ∈ digits, isDigit d = true) :
    digitsValue digits < 10 ^ digits.length := by
  have hlt := amount_lt hdigits (by norm_num : 0 < 10 ^ 0)
  rwa [Nat.zero_add] at hlt

/-- A number is read if it has digits before the point and an admissible end, and fits. -/
theorem magnitude_eq (text : Bytes) :
    magnitude text =
      match fractionOf (text.dropWhile isDigit) with
      | some digits =>
        if startsDigit text ∧ (scaledE8 (text.takeWhile isDigit) digits : ℤ) ≤ int64Max then
          .ok (scaledE8 (text.takeWhile isDigit) digits : ℕ)
        else .error .refused
      | none => .error .refused := by
  have hwhole := wholeDigits_eq 0 (by unfold int64Max; norm_num) false text
  rw [Nat.cast_zero, Bool.false_or] at hwhole
  rw [magnitude, hwhole]
  have hvalue : amount 0 ((text.takeWhile isDigit).map digitValue) =
    digitsValue (text.takeWhile isDigit) := rfl
  rw [hvalue]
  by_cases hfits : (digitsValue (text.takeWhile isDigit) : ℤ) ≤ int64Max
  · rw [if_pos hfits]
    simp only [Except.bind, bind, fraction_eq]
    cases hfraction : fractionOf (text.dropWhile isDigit) with
    | none => cases startsDigit text <;> rfl
    | some digits =>
      obtain ⟨-, hlength, hdigits⟩ := fractionOf_eq_some_iff.mp hfraction
      cases startsDigit text with
      | false => rfl
      | true =>
        simp only [true_and]
        exact scale_eq hlength (digitsValue_lt hdigits)
  · -- The number before the point alone is too large.
    have hlarge : ∀ digits, ¬(scaledE8 (text.takeWhile isDigit) digits : ℤ) ≤ int64Max := by
      intro digits
      unfold scaledE8
      push_cast
      have : (0 : ℤ) ≤ digitsValue digits * 10 ^ (8 - digits.length) := by positivity
      omega
    rw [if_neg hfits]
    cases fractionOf (text.dropWhile isDigit) with
    | none => rfl
    | some digits => simp only [hlarge digits, and_false, if_false]; rfl

/-! ## The numbers that are read -/

/-- The text is a decimal number without a minus sign and with at most eight digits after the point,
and stands for `x`. -/
def DecimalNumber (text : Bytes) (x : ℚ) : Prop :=
  ∃ sign whole point fraction : Bytes, text = sign ++ whole ++ point ++ fraction ∧
    (sign = [] ∨ sign = [ch '+']) ∧
    whole ≠ [] ∧ (∀ d ∈ whole, isDigit d = true) ∧
    (point = [] ∧ fraction = [] ∨ point = [ch '.']) ∧
    fraction.length ≤ 8 ∧ (∀ d ∈ fraction, isDigit d = true) ∧
    x = digitsValue whole + digitsValue fraction / 10 ^ fraction.length

theorem scaledE8_eq (whole fraction : Bytes) (h : fraction.length ≤ 8) :
    (scaledE8 whole fraction : ℚ) =
      (digitsValue whole + digitsValue fraction / 10 ^ fraction.length) * 10 ^ 8 := by
  have hpow : (10 : ℚ) ^ 8 = 10 ^ fraction.length * 10 ^ (8 - fraction.length) := by
    rw [← pow_add, Nat.add_sub_cancel' h]
  have hfraction : (digitsValue fraction : ℚ) / 10 ^ fraction.length * 10 ^ 8 =
      digitsValue fraction * 10 ^ (8 - fraction.length) := by
    rw [hpow, ← mul_assoc, div_mul_cancel₀ _ (by positivity)]
  rw [scaledE8, add_mul, hfraction]
  push_cast
  rfl

theorem magnitude_ne_overflow (text : Bytes) : magnitude text ≠ .error .overflow := by
  rw [magnitude_eq]
  split
  · split <;> simp
  · simp

theorem startsDigit_of_magnitude {text : Bytes} {v : ℤ} (h : magnitude text = .ok v) :
    startsDigit text = true := by
  rw [magnitude_eq] at h
  split at h
  · split at h
    · rename_i hstarts
      exact hstarts.1
    · cases h
  · cases h

/-- What is read without a sign: the two runs of digits are the ones of the grammar. -/
theorem magnitude_ok_iff {text : Bytes} {v : ℤ} :
    magnitude text = .ok v ↔
      ∃ whole point fraction : Bytes, text = whole ++ point ++ fraction ∧
        whole ≠ [] ∧ (∀ d ∈ whole, isDigit d = true) ∧
        (point = [] ∧ fraction = [] ∨ point = [ch '.']) ∧
        fraction.length ≤ 8 ∧ (∀ d ∈ fraction, isDigit d = true) ∧
        v = scaledE8 whole fraction ∧ v ≤ int64Max := by
  rw [magnitude_eq]
  constructor
  · intro h
    cases hfraction : fractionOf (text.dropWhile isDigit) with
    | none => rw [hfraction] at h; cases h
    | some digits =>
      rw [hfraction] at h
      obtain ⟨⟨point, hrest, hpoint⟩, hlength, hdigits⟩ := fractionOf_eq_some_iff.mp hfraction
      dsimp only at h
      split at h
      case isFalse => cases h
      rename_i hread
      cases h
      have hwhole : text.takeWhile isDigit ≠ [] := by
        cases text with
        | nil => cases hread.1
        | cons b rest =>
          have hb : isDigit b = true := hread.1
          rw [List.takeWhile_cons_of_pos hb]
          exact List.cons_ne_nil _ _
      refine ⟨text.takeWhile isDigit, point, digits, ?_, hwhole, isDigit_of_mem_takeWhile, hpoint,
        hlength, hdigits, rfl, hread.2⟩
      rw [List.append_assoc, ← hrest, List.takeWhile_append_dropWhile]
  · rintro ⟨whole, point, fraction, rfl, hne, hwhole, hpoint, hlength, hfraction, rfl, hfits⟩
    have hend : fractionOf (point ++ fraction) = some fraction :=
      fractionOf_eq_some_iff.mpr ⟨⟨point, rfl, hpoint⟩, hlength, hfraction⟩
    -- the run of digits ends where the end of the text begins
    have hstop : (point ++ fraction).takeWhile isDigit = [] ∧
        (point ++ fraction).dropWhile isDigit = point ++ fraction := by
      rcases hpoint with ⟨rfl, rfl⟩ | rfl
      · exact ⟨rfl, rfl⟩
      · exact ⟨rfl, rfl⟩
    have hstarts : startsDigit (whole ++ (point ++ fraction)) = true := by
      cases whole with
      | nil => exact absurd rfl hne
      | cons b whole => exact hwhole b List.mem_cons_self
    rw [List.append_assoc, List.takeWhile_append_of_pos hwhole, List.dropWhile_append_of_pos hwhole,
      hstop.1, hstop.2, List.append_nil, hend]
    exact if_pos ⟨hstarts, hfits⟩

/-- The number is what follows a plus sign, or the whole text, and nothing follows a minus sign. -/
theorem parseDecimalE8_eq (text : Bytes) :
    parseDecimalE8 text =
      match trim text with
      | [] => .error .refused
      | b :: rest =>
        if b = ch '-' then .error .refused
        else if b = ch '+' then magnitude rest else magnitude (b :: rest) := by
  unfold parseDecimalE8
  cases trim text with
  | nil => rfl
  | cons b rest =>
    dsimp only
    by_cases hminus : b = ch '-'
    · rw [if_pos (.inl hminus), if_pos hminus]
    by_cases hplus : b = ch '+'
    · simp only [hplus, true_or, if_true]
      cases rest with
      | nil => rfl
      | cons c rest => rfl
    · simp only [hminus, hplus, or_self, if_false, reduceCtorEq]

/-- The text is read after the plus sign that it may have. -/
theorem parseDecimalE8_ok_iff {text : Bytes} {v : ℤ} :
    parseDecimalE8 text = .ok v ↔
      ∃ sign unsigned, trim text = sign ++ unsigned ∧ (sign = [] ∨ sign = [ch '+']) ∧
        magnitude unsigned = .ok v := by
  rw [parseDecimalE8_eq]
  constructor
  · intro h
    cases htext : trim text with
    | nil => rw [htext] at h; cases h
    | cons b rest =>
      rw [htext] at h
      dsimp only at h
      split at h
      case isTrue => cases h
      split at h
      case isTrue hplus => exact ⟨[ch '+'], rest, by rw [hplus]; rfl, .inr rfl, h⟩
      case isFalse => exact ⟨[], b :: rest, rfl, .inl rfl, h⟩
  · rintro ⟨sign, unsigned, htext, rfl | rfl, hread⟩
    · have hstarts := startsDigit_of_magnitude hread
      rw [htext, List.nil_append]
      cases unsigned with
      | nil => cases hstarts
      | cons b rest =>
        have hminus : b ≠ ch '-' := by rintro rfl; cases hstarts
        have hplus : b ≠ ch '+' := by rintro rfl; cases hstarts
        dsimp only
        rw [if_neg hminus, if_neg hplus, hread]
    · rw [htext]
      exact hread

/-- `parseDecimalE8` reads exactly the decimal numbers of the grammar whose scaled value fits, and
gives exactly that value. No operation on the way overflows. -/
theorem decimal_import_exact (text : Bytes) :
    parseDecimalE8 text ≠ .error .overflow ∧
      ∀ v : ℤ, parseDecimalE8 text = .ok v ↔
        ∃ x, DecimalNumber (trim text) x ∧ (v : ℚ) = x * 10 ^ 8 ∧ x * 10 ^ 8 ≤ 2 ^ 63 - 1 := by
  constructor
  · rw [parseDecimalE8_eq]
    split
    · simp
    · split_ifs
      · simp
      · exact magnitude_ne_overflow _
      · exact magnitude_ne_overflow _
  · intro v
    rw [parseDecimalE8_ok_iff]
    have hmax : ((int64Max : ℤ) : ℚ) = 2 ^ 63 - 1 := by norm_num [int64Max]
    constructor
    · rintro ⟨sign, unsigned, htext, hsign, hread⟩
      obtain ⟨whole, point, fraction, rfl, hne, hwhole, hpoint, hlength, hfraction, hv, hfits⟩ :=
        magnitude_ok_iff.mp hread
      have hvalue : (v : ℚ) = (digitsValue whole + digitsValue fraction / 10 ^ fraction.length) *
          10 ^ 8 := by
        rw [← scaledE8_eq whole fraction hlength, hv]
        rfl
      refine ⟨_, ⟨sign, whole, point, fraction, by rw [htext]; simp, hsign, hne, hwhole, hpoint,
        hlength, hfraction, rfl⟩, hvalue, ?_⟩
      rw [← hvalue, ← hmax]
      exact_mod_cast hfits
    · rintro ⟨x, ⟨sign, whole, point, fraction, htext, hsign, hne, hwhole, hpoint, hlength,
        hfraction, rfl⟩, hv, hfits⟩
      have hscaled : v = scaledE8 whole fraction := by
        rw [← scaledE8_eq whole fraction hlength] at hv
        exact_mod_cast hv
      refine ⟨sign, whole ++ point ++ fraction, by rw [htext]; simp, hsign, magnitude_ok_iff.mpr
        ⟨whole, point, fraction, rfl, hne, hwhole, hpoint, hlength, hfraction, hscaled, ?_⟩⟩
      rw [← hv, ← hmax] at hfits
      exact_mod_cast hfits

/-- The largest number that is read, written with a sign and spaces. -/
example : parseDecimalE8 (text " +92233720368.54775807\n") = .ok (2 ^ 63 - 1) := by decide +kernel

end HftRecorder.History
