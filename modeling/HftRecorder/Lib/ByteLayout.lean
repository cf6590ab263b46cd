import Mathlib.Data.List.Basic
import Mathlib.Data.List.GetD
import Mathlib.Tactic.Ring
import Mathlib.Tactic.Linarith

/-!
# Packed little-endian layouts

The object representation of a trivially copyable struct is a fixed number of bytes, and each of its
integer members is a little-endian field at a fixed offset. `toLE` and `ofLE` are the two directions
for one member, `pack` and `unpack` for a whole struct given by the widths of its members (padding
is a member like any other), and `field` and `setField` read and replace one member of a raw
representation. `Layout` collects what a table of such structs needs: a size, the two directions,
and the values for which they are inverse.
-/

namespace ByteLayout

/-- A string of bytes. -/
abbrev Bytes := List UInt8

/-- The `width` low bytes of `n`, lowest first. -/
def toLE : ℕ → ℕ → Bytes
  | 0, _ => []
  | width + 1, n => UInt8.ofNat n :: toLE width (n / 256)

/-- The number that a little-endian string of bytes represents. -/
def ofLE : Bytes → ℕ
  | [] => 0
  | b :: bs => b.toNat + 256 * ofLE bs

@[simp]
theorem length_toLE (width n : ℕ) : (toLE width n).length = width := by
  induction width generalizing n with
  | zero => rfl
  | succ width ih => simp [toLE, ih]

theorem ofLE_lt (b : Bytes) : ofLE b < 256 ^ b.length := by
  induction b with
  | nil => simp [ofLE]
  | cons x xs ih =>
    have hx : x.toNat < 256 := x.toNat_lt
    simp only [ofLE, List.length_cons, pow_succ]
    omega

theorem ofLE_toLE (width n : ℕ) : ofLE (toLE width n) = n % 256 ^ width := by
  induction width generalizing n with
  | zero => simp [toLE, ofLE, Nat.mod_one]
  | succ width ih =>
    have hlow : (UInt8.ofNat n).toNat = n % 256 := UInt8.toNat_ofNat'
    simp only [toLE, ofLE, ih, hlow]
    rw [pow_succ, Nat.mul_comm (256 ^ width) 256, Nat.mod_mul]

variable {width : ℕ}

theorem ofLE_toLE_of_lt {n : ℕ} (h : n < 256 ^ width) : ofLE (toLE width n) = n := by
  rw [ofLE_toLE, Nat.mod_eq_of_lt h]

/-- Reading a string of bytes and writing it back at its own width gives the same bytes. -/
theorem toLE_ofLE (b : Bytes) : toLE b.length (ofLE b) = b := by
  induction b with
  | nil => rfl
  | cons x xs ih =>
    have hx : x.toNat < 256 := x.toNat_lt
    have hdiv : (x.toNat + 256 * ofLE xs) / 256 = ofLE xs := by omega
    have hlow : UInt8.ofNat (x.toNat + 256 * ofLE xs) = x := by
      apply UInt8.toNat_inj.mp
      rw [UInt8.toNat_ofNat']
      omega
    simp only [ofLE, List.length_cons, toLE, hdiv, hlow, ih]

/-- A struct with members of the given widths, packed in order. -/
def pack : List ℕ → List ℕ → Bytes
  | w :: ws, v :: vs => toLE w v ++ pack ws vs
  | _, _ => []

/-- The members of the given widths, read in order. -/
def unpack : List ℕ → Bytes → List ℕ
  | [], _ => []
  | w :: ws, b => ofLE (b.take w) :: unpack ws (b.drop w)

variable {ws : List ℕ}

theorem length_pack {vs : List ℕ} (h : vs.length = ws.length) : (pack ws vs).length = ws.sum := by
  induction ws generalizing vs with
  | nil => cases vs <;> simp [pack]
  | cons w ws ih =>
    cases vs with
    | nil => simp at h
    | cons v vs => simp [pack, ih (by simpa using h)]

def Fits (ws vs : List ℕ) : Prop := List.Forall₂ (fun w v => v < 256 ^ w) ws vs

theorem unpack_pack_append {vs : List ℕ} (h : Fits ws vs) (rest : Bytes) :
    unpack ws (pack ws vs ++ rest) = vs := by
  induction h with
  | nil => rfl
  | cons hv _ ih => simp [unpack, pack, ofLE_toLE_of_lt hv, ih]

theorem unpack_pack {vs : List ℕ} (h : Fits ws vs) : unpack ws (pack ws vs) = vs := by
  simpa using unpack_pack_append h []

variable {b : Bytes}

theorem pack_unpack (h : b.length = ws.sum) : pack ws (unpack ws b) = b := by
  induction ws generalizing b with
  | nil => exact (List.eq_nil_of_length_eq_zero h).symm
  | cons w ws ih =>
    simp only [List.sum_cons] at h
    have htake : (b.take w).length = w := by simp; omega
    have hle : toLE w (ofLE (b.take w)) = b.take w := by
      have := toLE_ofLE (b.take w)
      rwa [htake] at this
    simp only [unpack, pack, hle, ih (b := b.drop w) (by simp; omega), List.take_append_drop]

/-- The member of `width` bytes at `offset`. -/
def field (b : Bytes) (offset width : ℕ) : ℕ := ofLE ((b.drop offset).take width)

theorem field_lt (b : Bytes) (offset width : ℕ) : field b offset width < 256 ^ width :=
  (ofLE_lt _).trans_le (Nat.pow_le_pow_right (by norm_num) (by simp))

/-- The member of a packed struct at its offset, truncated to its width. -/
theorem field_pack_append {vs : List ℕ} {i w v : ℕ} (rest : Bytes) (h : vs.length = ws.length)
    (hw : ws[i]? = some w) (hv : vs[i]? = some v) :
    field (pack ws vs ++ rest) (ws.take i).sum w = v % 256 ^ w := by
  induction i generalizing ws vs with
  | zero =>
    cases ws with
    | nil => cases hw
    | cons w' ws =>
      cases vs with
      | nil => cases hv
      | cons v' vs =>
        cases hw
        cases hv
        rw [List.take_zero, List.sum_nil, field, List.drop_zero, pack, List.append_assoc,
          List.take_left' (length_toLE _ _), ofLE_toLE]
  | succ i ih =>
    cases ws with
    | nil => cases hw
    | cons w' ws =>
      cases vs with
      | nil => cases hv
      | cons v' vs =>
        have hrest := ih (Nat.succ.inj h) hw hv
        rw [List.take_succ_cons, List.sum_cons, field, pack, List.append_assoc,
          ← List.drop_drop, List.drop_left' (length_toLE _ _)]
        exact hrest

/-- The representation with the member of `width` bytes at `offset` replaced. -/
def setField (b : Bytes) (offset width n : ℕ) : Bytes :=
  b.take offset ++ toLE width n ++ b.drop (offset + width)

variable {offset : ℕ}

theorem length_setField (n : ℕ) (h : offset + width ≤ b.length) :
    (setField b offset width n).length = b.length := by
  simp [setField]
  omega

theorem field_setField_same {n : ℕ} (h : offset ≤ b.length) (hn : n < 256 ^ width) :
    field (setField b offset width n) offset width = n := by
  have hlen : (b.take offset).length = offset := by simpa using h
  rw [field, setField, List.append_assoc, List.drop_left' hlen, List.take_left' (length_toLE _ _),
    ofLE_toLE_of_lt hn]

theorem field_setField_before {o w n : ℕ} (h : o + w ≤ offset) (hlen : offset ≤ b.length) :
    field (setField b offset width n) o w = field b o w := by
  have hl : (b.take offset).length = offset := by simpa using hlen
  unfold field setField
  rw [List.append_assoc, List.drop_append_of_le_length (by omega),
    List.take_append_of_le_length (by simp; omega), List.drop_take, List.take_take]
  congr 2
  omega

theorem drop_setField {o n : ℕ} (h : offset + width ≤ o) (hlen : offset ≤ b.length) :
    (setField b offset width n).drop o = b.drop o := by
  have hl : (b.take offset ++ toLE width n).length = offset + width := by simp; omega
  rw [setField, List.drop_append, List.drop_eq_nil_of_le (by omega), List.nil_append,
    List.drop_drop, hl]
  congr 1
  omega

theorem field_setField_after {o w n : ℕ} (h : offset + width ≤ o) (hlen : offset ≤ b.length) :
    field (setField b offset width n) o w = field b o w := by
  rw [field, drop_setField h hlen, field]

def toInt64 (n : ℕ) : ℤ := if n < 2 ^ 63 then n else (n : ℤ) - 2 ^ 64

/-- The 64-bit member that holds a signed value. -/
def ofInt64 (z : ℤ) : ℕ := (z % 2 ^ 64).toNat

/-- The first `count` pieces of `size` bytes each. -/
def chunks (size : ℕ) : ℕ → Bytes → List Bytes
  | 0, _ => []
  | count + 1, b => b.take size :: chunks size count (b.drop size)

@[simp]
theorem length_chunks (size count : ℕ) (b : Bytes) : (chunks size count b).length = count := by
  induction count generalizing b with
  | zero => rfl
  | succ count ih => simp [chunks, ih]

theorem chunks_flatten (size : ℕ) {pieces : List Bytes} (h : ∀ p ∈ pieces, p.length = size) :
    chunks size pieces.length pieces.flatten = pieces := by
  induction pieces with
  | nil => rfl
  | cons p ps ih =>
    have hp : p.length = size := h p (by simp)
    simp only [List.length_cons, chunks, List.flatten_cons]
    rw [List.take_left' hp, List.drop_left' hp, ih (fun q hq => h q (by simp [hq]))]

theorem length_flatten_of_size (size : ℕ) {pieces : List Bytes}
    (h : ∀ p ∈ pieces, p.length = size) : pieces.flatten.length = pieces.length * size := by
  induction pieces with
  | nil => simp
  | cons p ps ih =>
    rw [List.flatten_cons, List.length_append, h p (by simp), ih (fun q hq => h q (by simp [hq])),
      List.length_cons]
    ring

/-- An object of a fixed size as its bytes. -/
structure Raw (size : ℕ) where
  bytes : Bytes
  length_bytes : bytes.length = size
  deriving DecidableEq

namespace Raw

variable {size : ℕ}

/-- The object with the given bytes, and the all-zero object for a string of another size. -/
def ofBytes (size : ℕ) (b : Bytes) : Raw size :=
  if h : b.length = size then ⟨b, h⟩ else ⟨List.replicate size 0, by simp⟩

@[simp]
theorem ofBytes_bytes (r : Raw size) : ofBytes size r.bytes = r := by
  simp [ofBytes, r.length_bytes]

theorem bytes_ofBytes {b : Bytes} (h : b.length = size) : (ofBytes size b).bytes = b := by
  simp [ofBytes, h]

def set (r : Raw size) (offset width n : ℕ) (h : offset + width ≤ size) : Raw size :=
  ⟨setField r.bytes offset width n, by
    rw [length_setField n (by rw [r.length_bytes]; exact h), r.length_bytes]⟩

end Raw

/-- The object representation of the values of a type: all of one size, written by `toBytes` and
read by `ofBytes`, which are inverse on the values that fit their members. -/
class Layout (α : Type) where
  /-- The size of every representation. -/
  size : ℕ
  /-- A value's representation. -/
  toBytes : α → Bytes
  /-- The value that a representation of the right size stands for. -/
  ofBytes : Bytes → α
  /-- The values whose members are in range. -/
  InRange : α → Prop
  length_toBytes : ∀ a, (toBytes a).length = size
  ofBytes_toBytes : ∀ a, InRange a → ofBytes (toBytes a) = a

/-- The layout of a structure whose members are listed by `fields` and read back by `ofFields`. Its
values in range are the ones that these two functions and the widths reproduce. -/
@[reducible]
def packedLayout {α : Type} (widths : List ℕ) (fields : α → List ℕ) (ofFields : List ℕ → α)
    (h : ∀ a, (fields a).length = widths.length) : Layout α where
  size := widths.sum
  toBytes a := pack widths (fields a)
  ofBytes b := ofFields (unpack widths b)
  InRange a := Fits widths (fields a) ∧ ofFields (fields a) = a
  length_toBytes a := length_pack (h a)
  ofBytes_toBytes a ha := by rw [unpack_pack ha.1, ha.2]

/-- The representations of a list of values, one after the other. -/
def tableBytes {α : Type} [Layout α] (l : List α) : Bytes := (l.map Layout.toBytes).flatten

/-- The values of a table with `count` entries. -/
def tableOf {α : Type} [Layout α] (count : ℕ) (b : Bytes) : List α :=
  (chunks (Layout.size α) count b).map Layout.ofBytes

variable {α : Type}

@[simp]
theorem length_tableOf [Layout α] (count : ℕ) (b : Bytes) :
    (tableOf count b : List α).length = count := by
  simp [tableOf]

@[simp]
theorem tableBytes_nil [Layout α] : tableBytes ([] : List α) = [] := rfl

theorem tableOf_tableBytes [Layout α] {l : List α} (h : ∀ a ∈ l, Layout.InRange a) :
    tableOf l.length (tableBytes l) = l := by
  have hc := @chunks_flatten (Layout.size α) (l.map Layout.toBytes)
    (by simp [Layout.length_toBytes])
  rw [List.length_map] at hc
  rw [tableOf, tableBytes, hc, List.map_map]
  conv_rhs => rw [← List.map_id l]
  exact List.map_congr_left fun a ha => Layout.ofBytes_toBytes a (h a ha)

end ByteLayout
