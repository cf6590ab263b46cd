import Mathlib.Data.List.Basic
import Mathlib.Data.List.Range
import Mathlib.Algebra.BigOperators.Group.List.Basic
import Mathlib.Algebra.GroupWithZero.Nat

/-!
# Numbered pieces of a whole

A whole that is stored in several pieces, each of which names its number, how many pieces there are,
where it starts, how large it is, and how large the whole is. `Numbered` says that a list starts
with the pieces of a whole in order, and `Whole` that it has all of them. Pieces that are cut at
multiples of a width are numbered, and they are the whole as soon as there are enough of them.
-/

namespace Pieces

variable {α : Type}

/-- Where a piece says that it belongs. -/
structure Labels (α : Type) where
  index : α → ℕ
  count : α → ℕ
  offset : α → ℕ
  size : α → ℕ
  total : α → ℕ

/-- The first pieces of a whole of `total` in `count` pieces: they are numbered from zero, and each
starts where the ones before it end. -/
structure Numbered (L : Labels α) (count total : ℕ) (pieces : List α) : Prop where
  index_eq : pieces.map L.index = List.range pieces.length
  count_eq : ∀ a ∈ pieces, L.count a = count
  total_eq : ∀ a ∈ pieces, L.total a = total
  offset_eq : ∀ i a, pieces[i]? = some a → L.offset a = ((pieces.take i).map L.size).sum

/-- All pieces of a whole: their number is the announced one, and their sizes add up to the announced
total. -/
structure Whole (L : Labels α) (count total : ℕ) (pieces : List α) : Prop where
  numbered : Numbered L count total pieces
  length_eq : pieces.length = count
  count_pos : 0 < count
  sum_eq : (pieces.map L.size).sum = total

/-- A piece of a whole that is cut at multiples of a width. -/
structure CutAt (L : Labels α) (width count total i : ℕ) (a : α) : Prop where
  index_eq : L.index a = i
  count_eq : L.count a = count
  total_eq : L.total a = total
  offset_eq : L.offset a = i * width
  size_eq : L.size a = min width (total - i * width)
  offset_le : i * width ≤ total

/-- The first pieces of a whole that is cut at multiples of a width. -/
def CutAll (L : Labels α) (width count total : ℕ) (pieces : List α) : Prop :=
  ∀ i a, pieces[i]? = some a → CutAt L width count total i a

variable {L : Labels α} {width count total : ℕ} {pieces : List α}

theorem CutAll.nil : CutAll L width count total [] := by
  intro i a h
  cases h

theorem CutAll.snoc (h : CutAll L width count total pieces) {a : α}
    (ha : CutAt L width count total pieces.length a) :
    CutAll L width count total (pieces ++ [a]) := by
  intro i b hb
  rcases lt_or_ge i pieces.length with hi | hi
  · rw [List.getElem?_append_left hi] at hb
    exact h i b hb
  · rw [List.getElem?_append_right hi] at hb
    obtain ⟨rfl, rfl⟩ : i = pieces.length ∧ a = b := by
      cases hk : i - pieces.length with
      | zero =>
        rw [hk] at hb
        exact ⟨by omega, Option.some.inj hb⟩
      | succ k =>
        rw [hk] at hb
        cases hb
    exact ha

theorem CutAll.take (h : CutAll L width count total pieces) (n : ℕ) :
    CutAll L width count total (pieces.take n) := by
  intro i a ha
  rw [List.getElem?_take] at ha
  split at ha
  · exact h i a ha
  · cases ha

/-- The sizes of the first pieces add up to the multiple of the width that they reach, or to the
total. -/
theorem CutAll.sum (h : CutAll L width count total pieces) :
    (pieces.map L.size).sum = min (pieces.length * width) total := by
  induction pieces using List.reverseRecOn with
  | nil => simp
  | append_singleton pieces a ih =>
    have hpieces : CutAll L width count total pieces := by
      have htake := h.take pieces.length
      rwa [List.take_left] at htake
    have ha := h pieces.length a (by simp)
    have hsize := ha.size_eq
    have hle := ha.offset_le
    simp only [List.map_append, List.map_cons, List.map_nil, List.sum_append, List.sum_cons,
      List.sum_nil, List.length_append, List.length_cons, List.length_nil, ih hpieces, hsize,
      Nat.add_mul]
    omega

theorem CutAll.numbered (h : CutAll L width count total pieces) : Numbered L count total pieces := by
  refine ⟨?_, ?_, ?_, ?_⟩
  · apply List.ext_getElem?
    intro i
    rw [List.getElem?_map]
    cases ha : pieces[i]? with
    | none =>
      rw [List.getElem?_eq_none_iff] at ha
      rw [List.getElem?_eq_none (by simpa using ha), Option.map_none]
    | some a =>
      rw [List.getElem?_range (List.getElem?_eq_some_iff.mp ha).1, Option.map_some, (h i a ha).index_eq]
  · intro a ha
    obtain ⟨i, hi⟩ := List.getElem?_of_mem ha
    exact (h i a hi).count_eq
  · intro a ha
    obtain ⟨i, hi⟩ := List.getElem?_of_mem ha
    exact (h i a hi).total_eq
  · intro i a ha
    have hlt := (List.getElem?_eq_some_iff.mp ha).1
    have hle := (h i a ha).offset_le
    rw [(h i a ha).offset_eq, (h.take i).sum, List.length_take_of_le hlt.le, min_eq_left hle]

theorem CutAll.whole (h : CutAll L width count total pieces) (hlength : pieces.length = count)
    (hcount : 0 < count) (htotal : total ≤ count * width) : Whole L count total pieces :=
  ⟨h.numbered, hlength, hcount, by rw [h.sum, hlength, min_eq_right htotal]⟩

end Pieces
