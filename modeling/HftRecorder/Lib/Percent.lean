import HftRecorder.Lib.ByteLayout

/-!
# Percent encoding

A text in which `%` and two hexadecimal digits stand for a byte, and every other byte for itself.
`decode` reads it. `encode` keeps the bytes that a predicate admits and writes all others with
upper-case digits; what it writes is read back if `%` is not kept.
-/

namespace Percent

open ByteLayout (Bytes)

/-- The byte `%`. -/
def mark : UInt8 := 37

/-- The value of a hexadecimal digit, of either case. -/
def hexValue (b : UInt8) : Option ℕ :=
  if 48 ≤ b ∧ b ≤ 57 then some (b.toNat - 48)
  else if 65 ≤ b ∧ b ≤ 70 then some (b.toNat - 65 + 10)
  else if 97 ≤ b ∧ b ≤ 102 then some (b.toNat - 97 + 10)
  else none

def pairValue (high low : UInt8) : Option UInt8 := do
  let high ← hexValue high
  let low ← hexValue low
  return UInt8.ofNat (high <<< 4 ||| low)

/-- What a text stands for, if every `%` has its two digits. -/
def decode : Bytes → Option Bytes
  | [] => some []
  | b :: rest =>
    if b = mark then
      match rest with
      | high :: low :: rest =>
        match pairValue high low with
        | some value => (decode rest).map (value :: ·)
        | none => none
      | _ => none
    else (decode rest).map (b :: ·)

def upperDigit (d : ℕ) : UInt8 := if d < 10 then UInt8.ofNat (48 + d) else UInt8.ofNat (55 + d)

/-- A byte as it is, or as `%` and two digits. -/
def encodeByte (keep : UInt8 → Bool) (b : UInt8) : Bytes :=
  if keep b then [b] else [mark, upperDigit (b.toNat / 16), upperDigit (b.toNat % 16)]

/-- A text with the bytes that are not kept written as digits. -/
def encode (keep : UInt8 → Bool) (s : Bytes) : Bytes := s.flatMap (encodeByte keep)

theorem pairValue_upperDigit (b : UInt8) :
    pairValue (upperDigit (b.toNat / 16)) (upperDigit (b.toNat % 16)) = some b := by
  have hall : ∀ n : Fin 256, pairValue (upperDigit (n.val / 16)) (upperDigit (n.val % 16)) =
      some (UInt8.ofNat n.val) := by decide +kernel
  have := hall ⟨b.toNat, b.toNat_lt⟩
  rwa [UInt8.ofNat_toNat] at this

theorem decode_cons_of_ne {b : UInt8} (h : b ≠ mark) (rest : Bytes) :
    decode (b :: rest) = (decode rest).map (b :: ·) := by
  conv_lhs => unfold decode
  exact if_neg h

theorem decode_mark (high low : UInt8) (rest : Bytes) :
    decode (mark :: high :: low :: rest) =
      (pairValue high low).bind fun value => (decode rest).map (value :: ·) := by
  conv_lhs => unfold decode
  rw [if_pos rfl]
  dsimp only
  cases pairValue high low <;> rfl

theorem decode_encodeByte {keep : UInt8 → Bool} (hmark : keep mark = false) (b : UInt8)
    (rest : Bytes) : decode (encodeByte keep b ++ rest) = (decode rest).map (b :: ·) := by
  unfold encodeByte
  split
  · rename_i hb
    have hne : b ≠ mark := fun heq => by rw [heq, hmark] at hb; cases hb
    exact decode_cons_of_ne hne rest
  · rw [List.cons_append, List.cons_append, List.singleton_append, decode_mark, pairValue_upperDigit,
      Option.bind_some]

theorem decode_encode {keep : UInt8 → Bool} (hmark : keep mark = false) (s : Bytes) :
    decode (encode keep s) = some s := by
  induction s with
  | nil => rfl
  | cons b s ih =>
    have hcons : encode keep (b :: s) = encodeByte keep b ++ encode keep s := rfl
    rw [hcons, decode_encodeByte hmark, ih]
    rfl

theorem encode_injective {keep : UInt8 → Bool} (hmark : keep mark = false) {s t : Bytes}
    (h : encode keep s = encode keep t) : s = t := by
  have hs := decode_encode hmark s
  rw [h, decode_encode hmark t] at hs
  exact (Option.some.inj hs).symm

theorem length_le_length_encode (keep : UInt8 → Bool) (s : Bytes) :
    s.length ≤ (encode keep s).length := by
  induction s with
  | nil => exact le_rfl
  | cons b s ih =>
    have hcons : encode keep (b :: s) = encodeByte keep b ++ encode keep s := rfl
    have hbyte : 1 ≤ (encodeByte keep b).length := by
      unfold encodeByte
      split
      · exact le_rfl
      · exact Nat.le_add_left 1 2
    rw [hcons, List.length_append, List.length_cons]
    omega

/-- The texts of kept bytes and of `%` with two upper-case digits. -/
inductive Canonical (keep : UInt8 → Bool) : Bytes → Prop
  | nil : Canonical keep []
  | keep (b : UInt8) (rest : Bytes) : keep b = true → Canonical keep rest →
      Canonical keep (b :: rest)
  | escape (high low : ℕ) (rest : Bytes) : high < 16 → low < 16 → Canonical keep rest →
      Canonical keep (mark :: upperDigit high :: upperDigit low :: rest)

theorem canonical_encode (keep : UInt8 → Bool) (s : Bytes) : Canonical keep (encode keep s) := by
  induction s with
  | nil => exact .nil
  | cons b s ih =>
    have hcons : encode keep (b :: s) = encodeByte keep b ++ encode keep s := rfl
    have hb := b.toNat_lt
    rw [hcons]
    unfold encodeByte
    split
    · rename_i hkeep
      exact .keep b _ hkeep ih
    · exact .escape _ _ _ (by omega) (by omega) ih

end Percent
