import HftRecorder.Lib.Decimal

/-!
# The JSON text of a session

`Common/JsonString.hpp` and `Common/MiniJsonParser.hpp`. The parser walks a view of the text with a
position that only moves forward, so its state is the rest of the text, and every operation returns
what it read together with the new rest. An operation that fails may leave its position anywhere:
every caller gives up on the first failure, so a failure is just `none`.

What the serializers write is read back: a number by `parseInt64_appendInt` and
`parseUInt64_decimal`, a string of arbitrary bytes by `parseString_quote`. Both hold whatever
follows, a number needing a delimiter after it.
-/

namespace HftRecorder.Json

open ByteLayout (Bytes)
open Decimal

def ch (c : Char) : UInt8 := UInt8.ofNat c.toNat

def text (s : String) : Bytes := s.toList.map ch

/-! ## Writing -/

/-- The hexadecimal digits of `appendEscaped`. -/
def kHex (d : ℕ) : UInt8 := (text "0123456789abcdef").getD d 0

/-- What `appendEscaped` writes for one character. -/
def escapeByte (b : UInt8) : Bytes :=
  if b = ch '\\' then text "\\\\"
  else if b = ch '"' then text "\\\""
  else if b = 8 then text "\\b"
  else if b = 12 then text "\\f"
  else if b = 10 then text "\\n"
  else if b = 13 then text "\\r"
  else if b = 9 then text "\\t"
  else if b < 0x20 then text "\\u00" ++ [kHex (b.toNat / 16), kHex (b.toNat % 16)]
  else [b]

def appendEscaped (value : Bytes) : Bytes := value.flatMap escapeByte

/-- `json::quote`, and `appendString` of the serializers. -/
def quote (value : Bytes) : Bytes := ch '"' :: (appendEscaped value ++ [ch '"'])

/-- `appendInt` of the serializers: `std::to_chars` of a signed value. -/
def appendInt (z : ℤ) : Bytes := if z < 0 then ch '-' :: decimal z.natAbs else decimal z.natAbs

/-! ## Reading -/

def isWs (b : UInt8) : Bool := b = ch ' ' || b = 9 || b = 10 || b = 13

def skipWs (p : Bytes) : Bytes := p.dropWhile isWs

def consume (expected : UInt8) : Bytes → Option Bytes
  | [] => none
  | b :: rest => if b = expected then some rest else none

def finish (p : Bytes) : Bool := (skipWs p).isEmpty

def parseArrayStart (p : Bytes) : Option Bytes := (consume (ch '[') (skipWs p)).map skipWs

def parseArrayEnd (p : Bytes) : Option Bytes := consume (ch ']') (skipWs p)

def parseComma (p : Bytes) : Option Bytes := consume (ch ',') (skipWs p)

def peek (c : UInt8) (p : Bytes) : Bool := (skipWs p).head? = some c

def hexDigit (b : UInt8) : Option ℕ :=
  if ch '0' ≤ b ∧ b ≤ ch '9' then some (b.toNat - 48)
  else if ch 'a' ≤ b ∧ b ≤ ch 'f' then some (b.toNat - 97 + 10)
  else if ch 'A' ≤ b ∧ b ≤ ch 'F' then some (b.toNat - 65 + 10)
  else none

/-- The four digits of a `\u` escape. -/
def hexQuad (a b c d : UInt8) : Option ℕ := do
  let a ← hexDigit a
  let b ← hexDigit b
  let c ← hexDigit c
  let d ← hexDigit d
  return ((a * 16 + b) * 16 + c) * 16 + d

/-- The bytes of a `\u` escape; surrogates are not combined. -/
def utf8Bytes (value : ℕ) : Bytes :=
  if value ≤ 0x7f then [UInt8.ofNat value]
  else if value ≤ 0x7ff then
    [UInt8.ofNat (0xc0 + value / 64 % 32), UInt8.ofNat (0x80 + value % 64)]
  else
    [UInt8.ofNat (0xe0 + value / 4096 % 16), UInt8.ofNat (0x80 + value / 64 % 64),
      UInt8.ofNat (0x80 + value % 64)]

/-- The escapes that stand for one character. -/
def unescape (esc : UInt8) : Option UInt8 :=
  if esc = ch '"' then some (ch '"')
  else if esc = ch '\\' then some (ch '\\')
  else if esc = ch '/' then some (ch '/')
  else if esc = ch 'b' then some 8
  else if esc = ch 'f' then some 12
  else if esc = ch 'n' then some 10
  else if esc = ch 'r' then some 13
  else if esc = ch 't' then some 9
  else none

/-- The loop of `parseString`, after the opening quote; `out` is what it has read so far. -/
def stringBody (out : Bytes) : Bytes → Option (Bytes × Bytes)
  | [] => none
  | c :: rest =>
    if c = ch '"' then some (out, rest)
    else if c ≠ ch '\\' then
      if c < 0x20 then none else stringBody (out ++ [c]) rest
    else
      match rest with
      | [] => none
      | esc :: rest =>
        match unescape esc with
        | some b => stringBody (out ++ [b]) rest
        | none =>
          if esc = ch 'u' then
            match rest with
            | a :: b :: c :: d :: rest =>
              match hexQuad a b c d with
              | some value => stringBody (out ++ utf8Bytes value) rest
              | none => none
            | _ => none
          else none

def parseString (p : Bytes) : Option (Bytes × Bytes) :=
  match skipWs p with
  | [] => none
  | c :: rest => if c = ch '"' then stringBody [] rest else none

def delimited : Bytes → Bool
  | [] => true
  | b :: _ => isWs b || b = ch ',' || b = ch ']' || b = ch '}'

/-- `std::numeric_limits<std::uint64_t>::max()`. -/
def maxUInt64 : ℕ := 2 ^ 64 - 1

def parseInt64 (p : Bytes) : Option (Int64 × Bytes) :=
  match skipWs p with
  | [] => none
  | b :: rest =>
    let neg := b = ch '-'
    let digits := if neg then rest else b :: rest
    if !startsDigit digits then none
    else do
      let (value, rest) ← scan maxUInt64 (startsZero digits) 0 digits
      if !delimited rest then none
      else if neg then
        if value > 2 ^ 63 then none else some (Int64.ofInt (-value), rest)
      else if value > 2 ^ 63 - 1 then none
      else some (Int64.ofInt value, rest)

def parseUInt64 (p : Bytes) : Option (UInt64 × Bytes) :=
  match skipWs p with
  | [] => none
  | b :: rest =>
    if b = ch '-' then none
    else if !isDigit b then none
    else do
      let (value, rest) ← scan maxUInt64 (startsZero (b :: rest)) 0 (b :: rest)
      if !delimited rest then none else some (UInt64.ofNat value, rest)

def consumeLiteral (literal : Bytes) (p : Bytes) : Option Bytes :=
  if p.take literal.length ≠ literal then none else some (p.drop literal.length)

def parseBool (p : Bytes) : Option (Bool × Bytes) :=
  let p := skipWs p
  match consumeLiteral (text "true") p with
  | some rest => some (true, rest)
  | none => (consumeLiteral (text "false") p).map fun rest => (false, rest)

/-! ## Reading what was written -/

theorem skipWs_cons {b : UInt8} (h : isWs b = false) (rest : Bytes) :
    skipWs (b :: rest) = b :: rest := by
  rw [skipWs, List.dropWhile_cons, h]
  rfl

@[simp]
theorem skipWs_skipWs (p : Bytes) : skipWs (skipWs p) = skipWs p := by
  induction p with
  | nil => rfl
  | cons b rest ih =>
    by_cases hb : isWs b = true
    · have hdrop : skipWs (b :: rest) = skipWs rest := by simp [skipWs, hb]
      rw [hdrop, ih]
    · rw [skipWs_cons (by simpa using hb), skipWs_cons (by simpa using hb)]

@[simp]
theorem parseInt64_skipWs (p : Bytes) : parseInt64 (skipWs p) = parseInt64 p := by
  rw [parseInt64, skipWs_skipWs, ← parseInt64]

@[simp]
theorem parseUInt64_skipWs (p : Bytes) : parseUInt64 (skipWs p) = parseUInt64 p := by
  rw [parseUInt64, skipWs_skipWs, ← parseUInt64]

theorem isWs_of_isDigit {b : UInt8} (h : isDigit b = true) : isWs b = false := by
  simp only [isDigit, Bool.and_eq_true, decide_eq_true_eq, UInt8.le_iff_toNat_le] at h
  have hne : ∀ c : UInt8, c.toNat < 48 → decide (b = c) = false := by
    intro c hc
    have hb : 48 ≤ b.toNat := h.1
    refine decide_eq_false fun hbc => ?_
    rw [hbc] at hb
    omega
  simp [isWs, hne _ (show (ch ' ').toNat < 48 by decide), hne 9 (by decide), hne 10 (by decide),
    hne 13 (by decide)]

theorem startsDigit_of_delimited {p : Bytes} (h : delimited p = true) : startsDigit p = false := by
  cases p with
  | nil => rfl
  | cons b rest =>
    simp only [delimited, isWs, Bool.or_eq_true, decide_eq_true_eq] at h
    rcases h with (((((rfl | rfl) | rfl) | rfl) | rfl) | rfl) | rfl <;> rfl

theorem decimal_cons (n : ℕ) : ∃ b rest, decimal n = b :: rest ∧ isDigit b = true := by
  cases h : decimal n with
  | nil => exact absurd h (decimal_ne_nil n)
  | cons b rest => exact ⟨b, rest, rfl, isDigit_of_mem_decimal (h ▸ List.mem_cons_self ..)⟩

theorem startsDigit_decimal (n : ℕ) (rest : Bytes) : startsDigit (decimal n ++ rest) = true := by
  obtain ⟨b, tail, htail, hdigit⟩ := decimal_cons n
  rw [htail]
  exact hdigit

theorem ne_minus_of_isDigit {b : UInt8} (h : isDigit b = true) : b ≠ ch '-' := by
  rintro rfl
  exact absurd h (by decide)

theorem scan_delimited {n : ℕ} (hn : n < 2 ^ 64) {rest : Bytes} (h : delimited rest = true) :
    scan maxUInt64 (startsZero (decimal n ++ rest)) 0 (decimal n ++ rest) = some (n, rest) :=
  scan_decimal (by rw [maxUInt64]; omega) (startsDigit_of_delimited h)

theorem parseUInt64_decimal {n : ℕ} (hn : n < 2 ^ 64) {rest : Bytes} (h : delimited rest = true) :
    parseUInt64 (decimal n ++ rest) = some (UInt64.ofNat n, rest) := by
  obtain ⟨b, tail, htail, hdigit⟩ := decimal_cons n
  have hscan := scan_delimited (n := n) (by omega) h
  rw [htail] at hscan ⊢
  rw [parseUInt64, List.cons_append, skipWs_cons (isWs_of_isDigit hdigit)]
  rw [List.cons_append] at hscan
  simp only [ne_minus_of_isDigit hdigit, if_false, hdigit, Bool.not_true, Bool.false_eq_true, hscan,
    Option.bind_eq_bind, Option.bind_some, h]

theorem parseUInt64_minus (rest : Bytes) : parseUInt64 (ch '-' :: rest) = none := by
  rw [parseUInt64, skipWs_cons (by decide)]
  simp

theorem parseInt64_decimal {n : ℕ} (hn : n < 2 ^ 63) {rest : Bytes} (h : delimited rest = true) :
    parseInt64 (decimal n ++ rest) = some (Int64.ofInt n, rest) := by
  obtain ⟨b, tail, htail, hdigit⟩ := decimal_cons n
  have hscan := scan_delimited (n := n) (by omega) h
  have hsmall : ¬n > 2 ^ 63 - 1 := by omega
  rw [htail, List.cons_append] at hscan ⊢
  rw [parseInt64, skipWs_cons (isWs_of_isDigit hdigit)]
  simp only [ne_minus_of_isDigit hdigit, if_false, startsDigit, hdigit, Bool.not_true,
    Bool.false_eq_true, hscan, Option.bind_eq_bind, Option.bind_some, h, hsmall]

theorem parseInt64_minus {n : ℕ} (hn : n ≤ 2 ^ 63) {rest : Bytes} (h : delimited rest = true) :
    parseInt64 (ch '-' :: (decimal n ++ rest)) = some (Int64.ofInt (-n), rest) := by
  have hscan := scan_delimited (n := n) (by omega) h
  have hsmall : ¬n > 2 ^ 63 := by omega
  rw [parseInt64, skipWs_cons (by decide)]
  simp only [if_true, startsDigit_decimal, Bool.not_true, Bool.false_eq_true, if_false, hscan,
    Option.bind_eq_bind, Option.bind_some, h, hsmall]

theorem parseInt64_appendInt (v : Int64) {rest : Bytes} (h : delimited rest = true) :
    parseInt64 (appendInt v.toInt ++ rest) = some (v, rest) := by
  have hlow := v.le_toInt
  have hhigh := v.toInt_lt
  unfold appendInt
  split
  · have hneg : -(v.toInt.natAbs : ℤ) = v.toInt := by omega
    rw [List.cons_append, parseInt64_minus (by omega) h, hneg, Int64.ofInt_toInt]
  · have hpos : (v.toInt.natAbs : ℤ) = v.toInt := by omega
    rw [parseInt64_decimal (by omega) h, hpos, Int64.ofInt_toInt]

/-! ### Strings -/

theorem hexDigit_kHex {d : ℕ} (h : d < 16) : hexDigit (kHex d) = some d := by
  have hall : ∀ d : Fin 16, hexDigit (kHex d) = some d.val := by decide
  exact hall ⟨d, h⟩

/-- A character written by `appendEscaped` is read back. -/
theorem stringBody_escapeByte (out : Bytes) (b : UInt8) (rest : Bytes) :
    stringBody out (escapeByte b ++ rest) = stringBody (out ++ [b]) rest := by
  unfold escapeByte
  split_ifs with h1 h2 h3 h4 h5 h6 h7 h8
  · subst h1; rfl
  · subst h2; rfl
  · subst h3; rfl
  · subst h4; rfl
  · subst h5; rfl
  · subst h6; rfl
  · subst h7; rfl
  · -- A control character: its two hexadecimal digits give it back.
    have hb : b.toNat < 32 := UInt8.lt_iff_toNat_lt.mp h8
    have hquad : hexQuad (ch '0') (ch '0') (kHex (b.toNat / 16)) (kHex (b.toNat % 16))
        = some b.toNat := by
      have hzero : hexDigit (ch '0') = some 0 := rfl
      simp only [hexQuad, hzero, hexDigit_kHex (show b.toNat / 16 < 16 by omega),
        hexDigit_kHex (show b.toNat % 16 < 16 by omega), Option.bind_eq_bind, Option.bind_some,
        Option.pure_def]
      congr 1
      omega
    have hutf : utf8Bytes b.toNat = [b] := by
      rw [utf8Bytes, if_pos (by omega), UInt8.ofNat_toNat]
    have htext : text "\\u00" = [ch '\\', ch 'u', ch '0', ch '0'] := rfl
    have hslash : ch '\\' ≠ ch '"' := by decide
    have hu : unescape (ch 'u') = none := by decide
    simp only [htext, List.cons_append, List.nil_append, stringBody, hslash, if_false,
      ne_eq, not_true_eq_false, hu, if_true, hquad, hutf]
  · rw [List.singleton_append, stringBody.eq_def]
    simp only [h2, if_false, ne_eq, h1, not_false_eq_true, if_true, h8]

theorem stringBody_appendEscaped (value out rest : Bytes) :
    stringBody out (appendEscaped value ++ ch '"' :: rest) = some (out ++ value, rest) := by
  induction value generalizing out with
  | nil =>
    rw [appendEscaped, List.flatMap_nil, List.nil_append, List.append_nil, stringBody.eq_def]
    simp only [if_true]
  | cons b bs ih =>
    have hcons : appendEscaped (b :: bs) = escapeByte b ++ appendEscaped bs := by
      simp [appendEscaped]
    rw [hcons, List.append_assoc, stringBody_escapeByte, ih, List.append_assoc]
    rfl

theorem parseString_quote (value rest : Bytes) :
    parseString (quote value ++ rest) = some (value, rest) := by
  have hquote : quote value ++ rest = ch '"' :: (appendEscaped value ++ ch '"' :: rest) := by
    simp [quote]
  rw [hquote, parseString, skipWs_cons (by decide)]
  exact stringBody_appendEscaped value [] rest

end HftRecorder.Json
