import HftRecorder.Json.Text
import HftRecorder.Lib.Percent
import Mathlib.Data.FinEnum

/-!
# The folder name of a symbol

`recordingFolderSymbol` of `RecordingDiscovery.cpp` makes a directory name from a symbol that may be
given raw, percent-encoded, or both: it decodes the text and encodes the result again. The decoder
stops at the first byte that a name must not have and at the length of a file name
(`decodeFrom_eq` says when it succeeds), so what it returns depends on the decoded symbol alone.
-/

namespace HftRecorder.Recordings

open Percent

open ByteLayout (Bytes)
open Json (ch)

/-- `NAME_MAX`. -/
def NAME_MAX : ℕ := 255

/-- `hexDigit`, with `none` for `-1`. -/
def hexDigit (c : UInt8) : Option ℕ :=
  if ch '0' ≤ c ∧ c ≤ ch '9' then some (c.toNat - 48)
  else if ch 'A' ≤ c ∧ c ≤ ch 'F' then some (c.toNat - 65 + 10)
  else if ch 'a' ≤ c ∧ c ≤ ch 'f' then some (c.toNat - 97 + 10)
  else none

/-- The test of a decoded byte, and its `push_back`. -/
def pushSymbol (maximum : ℕ) (output : Bytes) (c : UInt8) : Option Bytes :=
  if c ≤ 0x20 ∨ c = 0x7f ∨ c = ch '/' ∨ c = ch '\\' ∨ output.length ≥ maximum then none
  else some (output ++ [c])

/-- The loop of `decodedSymbol`. -/
def decodeFrom (maximum : ℕ) : Bytes → Bytes → Option Bytes
  | output, [] => some output
  | output, c :: rest =>
    if c = ch '%' then
      match rest with
      | h :: l :: rest =>
        match hexDigit h, hexDigit l with
        | some high, some low =>
          match pushSymbol maximum output (UInt8.ofNat (high <<< 4 ||| low)) with
          | some output => decodeFrom maximum output rest
          | none => none
        | _, _ => none
      | _ => none
    else
      match pushSymbol maximum output c with
      | some output => decodeFrom maximum output rest
      | none => none

/-- `decodedSymbol`, empty if it gives up. -/
def decodedSymbol (input : Bytes) (maximum : ℕ) : Bytes :=
  if input = [] ∨ input.length > 3 * maximum then [] else (decodeFrom maximum [] input).getD []

/-- The bytes that `encodedSymbol` writes as they are. -/
def plain (c : UInt8) : Bool :=
  (ch 'A' ≤ c && c ≤ ch 'Z') || (ch 'a' ≤ c && c ≤ ch 'z') || (ch '0' ≤ c && c ≤ ch '9') || c = ch '_'

/-- `hex`. -/
def hex (d : ℕ) : UInt8 := (Json.text "0123456789ABCDEF").getD d 0

def encodedSymbol (symbol : Bytes) : Bytes :=
  symbol.flatMap fun c =>
    if plain c then [c] else [ch '%', hex (c.toNat / 16), hex (c.toNat % 16)]

/-- `recordingFolderSymbol` of one text. -/
def recordingFolderSymbol (input : Bytes) : Bytes :=
  let symbol := decodedSymbol input NAME_MAX
  if symbol = [] then []
  else
    let encoded := encodedSymbol symbol
    if encoded.length > NAME_MAX then [] else encoded

/-! ## Decoding -/

/-- A byte that a symbol may have: no slash, backslash, space, or control byte. -/
def SymbolByte (c : UInt8) : Prop := 0x20 < c ∧ c ≠ 0x7f ∧ c ≠ ch '/' ∧ c ≠ ch '\\'

instance (c : UInt8) : Decidable (SymbolByte c) := inferInstanceAs (Decidable (_ ∧ _))

theorem pushSymbol_eq (maximum : ℕ) (output : Bytes) (c : UInt8) :
    pushSymbol maximum output c =
      if SymbolByte c ∧ output.length < maximum then some (output ++ [c]) else none := by
  have hiff : (c ≤ 0x20 ∨ c = 0x7f ∨ c = ch '/' ∨ c = ch '\\' ∨ output.length ≥ maximum) ↔
      ¬ (SymbolByte c ∧ output.length < maximum) := by
    unfold SymbolByte
    rw [← UInt8.not_lt, ge_iff_le, ← Nat.not_lt]
    tauto
  rw [pushSymbol]
  by_cases h : SymbolByte c ∧ output.length < maximum
  · rw [if_neg (fun hc => hiff.mp hc h), if_pos h]
  · rw [if_pos (hiff.mpr h), if_neg h]

def admitted (maximum : ℕ) (output symbol : Bytes) : Option Bytes :=
  if (∀ c ∈ symbol, SymbolByte c) ∧ output.length + symbol.length ≤ maximum then
    some (output ++ symbol)
  else none

theorem admitted_cons (maximum : ℕ) (output : Bytes) (c : UInt8) (symbol : Bytes) :
    (pushSymbol maximum output c).bind (fun output => admitted maximum output symbol) =
      admitted maximum output (c :: symbol) := by
  rw [pushSymbol_eq]
  by_cases h : SymbolByte c ∧ output.length < maximum
  · rw [if_pos h, Option.bind_some]
    unfold admitted
    simp only [List.forall_mem_cons, h.1, true_and, List.length_append, List.length_cons,
      List.length_nil, List.append_assoc, List.singleton_append, Nat.zero_add, Nat.add_assoc,
      Nat.add_comm 1]
  · rw [if_neg h, Option.bind_none]
    refine (if_neg fun hall => h ⟨(List.forall_mem_cons.mp hall.1).1, ?_⟩).symm
    have := hall.2
    rw [List.length_cons] at this
    omega

theorem hexDigit_eq (c : UInt8) : hexDigit c = hexValue c := rfl

theorem bind_admitted_cons (maximum : ℕ) (output : Bytes) (c : UInt8) (symbol : Option Bytes) :
    (symbol.map (c :: ·)).bind (admitted maximum output) =
      (pushSymbol maximum output c).bind fun output => symbol.bind (admitted maximum output) := by
  cases symbol with
  | none => exact (Option.bind_fun_none _).symm
  | some symbol => exact (admitted_cons maximum output c symbol).symm

theorem length_le_of_pushSymbol {maximum : ℕ} {output pushed : Bytes} {c : UInt8}
    (h : pushSymbol maximum output c = some pushed) : pushed.length ≤ maximum := by
  rw [pushSymbol_eq] at h
  split at h
  · rename_i hc
    cases h
    rw [List.length_append, List.length_singleton]
    exact hc.2
  · cases h

theorem decode_of_short {rest : Bytes} (h : ∀ a b rest', rest = a :: b :: rest' → False) :
    decode (mark :: rest) = none := by
  match rest with
  | [] => rfl
  | [_] => rfl
  | a :: b :: rest => exact (h a b rest rfl).elim

/-- The loop succeeds on the texts that decode to an admissible symbol. -/
theorem decodeFrom_eq (maximum : ℕ) (output input : Bytes) (hout : output.length ≤ maximum) :
    decodeFrom maximum output input =
      (decode input).bind (admitted maximum output) := by
  fun_induction decodeFrom maximum output input with
  | case1 output =>
    have hempty : (∀ c ∈ ([] : Bytes), SymbolByte c) ∧ output.length + 0 ≤ maximum := ⟨nofun, hout⟩
    rw [decode, Option.bind_some, admitted, List.length_nil, if_pos hempty, List.append_nil]
  | case2 output h l rest high low hlow hhigh pushed hpush ih =>
    have hpair : pairValue h l = some (UInt8.ofNat (high <<< 4 ||| low)) := by
      rw [pairValue, ← hexDigit_eq, ← hexDigit_eq, hhigh, hlow]
      rfl
    rw [ih (length_le_of_pushSymbol hpush), show ch '%' = mark from rfl, decode_mark,
      hpair, Option.bind_some, bind_admitted_cons, hpush, Option.bind_some]
  | case3 output h l rest high low hlow hhigh hpush =>
    have hpair : pairValue h l = some (UInt8.ofNat (high <<< 4 ||| low)) := by
      rw [pairValue, ← hexDigit_eq, ← hexDigit_eq, hhigh, hlow]
      rfl
    rw [show ch '%' = mark from rfl, decode_mark, hpair, Option.bind_some,
      bind_admitted_cons, hpush, Option.bind_none]
  | case4 output h l rest hdigits =>
    have hpair : pairValue h l = none := by
      rw [pairValue, ← hexDigit_eq, ← hexDigit_eq]
      cases hhigh : hexDigit h with
      | none => rfl
      | some high =>
        cases hlow : hexDigit l with
        | none => rfl
        | some low => exact (hdigits high low hhigh hlow).elim
    rw [show ch '%' = mark from rfl, decode_mark, hpair, Option.bind_none, Option.bind_none]
  | case5 output rest hshort =>
    rw [show ch '%' = mark from rfl, decode_of_short hshort, Option.bind_none]
  | case6 output c rest hc pushed hpush ih =>
    rw [ih (length_le_of_pushSymbol hpush), decode_cons_of_ne hc, bind_admitted_cons, hpush,
      Option.bind_some]
  | case7 output c rest hc hpush =>
    rw [decode_cons_of_ne hc, bind_admitted_cons, hpush, Option.bind_none]

/-- A symbol was decoded if the text stands for it, it is neither empty nor too long, and it has no
forbidden byte. -/
theorem decodedSymbol_eq_iff {input symbol : Bytes} {maximum : ℕ} (hne : symbol ≠ []) :
    decodedSymbol input maximum = symbol ↔
      input.length ≤ 3 * maximum ∧ decode input = some symbol ∧
        (∀ c ∈ symbol, SymbolByte c) ∧ symbol.length ≤ maximum := by
  unfold decodedSymbol
  split
  · rename_i hguard
    refine iff_of_false hne.symm fun ⟨hlength, hdecode, _⟩ => ?_
    rcases hguard with rfl | hlong
    · exact hne (Option.some.inj hdecode).symm
    · exact not_lt.mpr hlength hlong
  · rename_i hguard
    have hlength : input.length ≤ 3 * maximum := not_lt.mp fun hlong => hguard (.inr hlong)
    rw [decodeFrom_eq maximum [] input (Nat.zero_le _)]
    cases hdecode : decode input with
    | none => exact iff_of_false hne.symm nofun
    | some decoded =>
      rw [Option.bind_some, admitted, List.nil_append, List.length_nil, Nat.zero_add]
      split
      · rename_i hadmitted
        refine ⟨fun heq => ?_, fun ⟨_, heq, _⟩ => Option.some.inj heq⟩
        cases heq
        exact ⟨hlength, rfl, hadmitted⟩
      · rename_i hadmitted
        refine iff_of_false hne.symm fun ⟨_, heq, hsymbol⟩ => hadmitted ?_
        rw [Option.some.inj heq]
        exact hsymbol

/-! ## Encoding -/

theorem hex_eq {d : ℕ} (h : d < 16) : hex d = upperDigit d := by
  have hall : ∀ d : Fin 16, hex d.val = upperDigit d.val := by decide
  exact hall ⟨d, h⟩

theorem encodedSymbol_eq (symbol : Bytes) : encodedSymbol symbol = encode plain symbol := by
  unfold encodedSymbol encode
  congr 1
  funext c
  have hc := c.toNat_lt
  rw [hex_eq (by omega), hex_eq (by omega)]
  rfl

theorem plain_mark : plain mark = false := by decide

/-! ## The folder name -/

/-- A name is returned for the texts that decode to an admissible symbol, if its encoding fits. -/
theorem recordingFolderSymbol_eq {input name : Bytes} (hne : name ≠ [])
    (h : recordingFolderSymbol input = name) :
    ∃ symbol, decode input = some symbol ∧ (∀ c ∈ symbol, SymbolByte c) ∧ symbol ≠ [] ∧
      name = encode plain symbol ∧ name.length ≤ NAME_MAX := by
  unfold recordingFolderSymbol at h
  dsimp only at h
  split at h
  · exact absurd h.symm hne
  · rename_i hsymbol
    obtain ⟨_, hdecode, hbytes, _⟩ := (decodedSymbol_eq_iff hsymbol).mp rfl
    split at h
    · exact absurd h.symm hne
    · rename_i hfits
      rw [encodedSymbol_eq] at h hfits
      exact ⟨_, hdecode, hbytes, hsymbol, h.symm, h ▸ not_lt.mp hfits⟩

theorem recordingFolderSymbol_encode {symbol : Bytes} (hbytes : ∀ c ∈ symbol, SymbolByte c)
    (hne : symbol ≠ []) (hfits : (encode plain symbol).length ≤ NAME_MAX) :
    recordingFolderSymbol (encode plain symbol) = encode plain symbol := by
  have hdecoded : decodedSymbol (encode plain symbol) NAME_MAX = symbol := by
    refine (decodedSymbol_eq_iff hne).mpr ⟨hfits.trans (by decide), decode_encode plain_mark _,
      hbytes, (length_le_length_encode plain symbol).trans hfits⟩
  unfold recordingFolderSymbol
  dsimp only
  rw [hdecoded, if_neg hne, encodedSymbol_eq, if_neg (not_lt.mpr hfits)]

/-- A folder name is empty, or has at most 255 bytes that are letters, digits, underscores, and `%`
with two upper-case digits. It is its own folder name. Two texts with the same name that is not empty
stand for the same symbol, without slash, backslash, space, or control byte. -/
theorem folder_symbol_canonical :
    (∀ input : Bytes,
      (recordingFolderSymbol input = [] ∨
        (recordingFolderSymbol input).length ≤ 255 ∧
          Percent.Canonical plain (recordingFolderSymbol input)) ∧
      recordingFolderSymbol (recordingFolderSymbol input) = recordingFolderSymbol input) ∧
    ∀ left right : Bytes, recordingFolderSymbol left = recordingFolderSymbol right →
      recordingFolderSymbol left ≠ [] →
      ∃ symbol, Percent.decode left = some symbol ∧ Percent.decode right = some symbol ∧
        ∀ c ∈ symbol, SymbolByte c := by
  constructor
  · intro input
    by_cases hne : recordingFolderSymbol input = []
    · rw [hne]
      exact ⟨.inl rfl, rfl⟩
    · obtain ⟨symbol, _, hbytes, hsymbol, hname, hfits⟩ := recordingFolderSymbol_eq hne rfl
      rw [hname] at hfits ⊢
      exact ⟨.inr ⟨hfits, canonical_encode plain symbol⟩,
        recordingFolderSymbol_encode hbytes hsymbol hfits⟩
  · intro left right heq hne
    obtain ⟨symbol, hleft, hbytes, _, hname, _⟩ := recordingFolderSymbol_eq hne rfl
    rw [heq] at hne hname
    obtain ⟨symbol', hright, _, _, hname', _⟩ := recordingFolderSymbol_eq hne rfl
    have hsame := encode_injective plain_mark (hname.symm.trans hname')
    exact ⟨symbol, hleft, hsame ▸ hright, hbytes⟩

/-- A symbol with a hyphen, raw and with the hyphen written in lower-case digits. -/
theorem hyphenated_folder_symbol :
    recordingFolderSymbol (Json.text "BTC%2dUSDT") = Json.text "BTC%2DUSDT" ∧
      ∃ symbol, Percent.decode (Json.text "BTC-USDT") = some symbol ∧
        Percent.decode (Json.text "BTC%2dUSDT") = some symbol ∧ ∀ c ∈ symbol, SymbolByte c :=
  ⟨by decide +kernel,
    folder_symbol_canonical.2 (Json.text "BTC-USDT") (Json.text "BTC%2dUSDT") (by decide +kernel)
      (by decide +kernel)⟩

end HftRecorder.Recordings
