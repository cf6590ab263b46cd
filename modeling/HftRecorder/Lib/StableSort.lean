import Mathlib.Data.List.Basic
import Mathlib.Data.List.Nodup
import Mathlib.Data.List.Perm.Basic

/-!
# Stable sorts

What a stable sort by a comparison guarantees (`SortedStably`), and that it can be had if the comparison
is a strict weak order on the elements (`sortedStably_iff`). Two elements of which neither is less keep
their order, so elements are compared together with their places.
-/

namespace StableSort

variable {α : Type} {less : α → α → Bool} {xs : List α}

/-- The comparison is a strict weak order on the elements of a list. -/
structure StrictWeakOn (less : α → α → Bool) (xs : List α) : Prop where
  irrefl : ∀ a ∈ xs, less a a = false
  trans : ∀ a ∈ xs, ∀ b ∈ xs, ∀ c ∈ xs, less a b = true → less b c = true → less a c = true
  /-- Elements of which neither is less are of one class. -/
  incomparable : ∀ a ∈ xs, ∀ b ∈ xs, ∀ c ∈ xs, less a b = false → less b a = false →
    less b c = false → less c b = false → less a c = false ∧ less c a = false

/-- No element is less than an earlier one, and elements of which neither is less are in the order of
their places. -/
def Ordered (less : α → α → Bool) (a b : α × ℕ) : Prop :=
  less b.1 a.1 = false ∧ (less a.1 b.1 = false → a.2 < b.2)

/-- The list is the other one, sorted stably. -/
def SortedStably (less : α → α → Bool) (xs sorted : List α) : Prop :=
  ∃ placed : List (α × ℕ), placed.Perm xs.zipIdx ∧ placed.Pairwise (Ordered less) ∧
    placed.map Prod.fst = sorted

theorem SortedStably.unique {sorted sorted' : List α} (h : SortedStably less xs sorted)
    (h' : SortedStably less xs sorted') : sorted = sorted' := by
  obtain ⟨placed, hperm, hpairs, rfl⟩ := h
  obtain ⟨placed', hperm', hpairs', rfl⟩ := h'
  refine congrArg _ (List.Perm.eq_of_pairwise (fun a b _ _ hab hba => ?_) hpairs hpairs'
    (hperm.trans hperm'.symm))
  have hlt := hab.2 hba.1
  have hgt := hba.2 hab.1
  omega

theorem StrictWeakOn.le_trans (h : StrictWeakOn less xs) {a b c : α} (ha : a ∈ xs) (hb : b ∈ xs)
    (hc : c ∈ xs) (hab : less b a = false) (hbc : less c b = false) : less c a = false := by
  by_contra hca
  rw [Bool.not_eq_false] at hca
  -- If `b` is in the class of `a` or of `c`, it is less than `a` or not less than `c` like them.
  cases hba : less a b with
  | true =>
    have hcb := h.trans c hc a ha b hb hca hba
    rw [hbc] at hcb
    cases hcb
  | false =>
    cases hcb : less b c with
    | true =>
      have hba' := h.trans b hb c hc a ha hcb hca
      rw [hab] at hba'
      cases hba'
    | false =>
      have hsame := (h.incomparable a ha b hb c hc hba hab hcb hbc).2
      rw [hca] at hsame
      cases hsame

theorem StrictWeakOn.asymm (h : StrictWeakOn less xs) {a b : α} (ha : a ∈ xs) (hb : b ∈ xs)
    (hab : less a b = true) : less b a = false := by
  by_contra hba
  rw [Bool.not_eq_false] at hba
  have hirrefl := h.irrefl a ha
  rw [h.trans a ha b hb a ha hab hba] at hirrefl
  cases hirrefl

/-- The merge sort of the library is a stable sort. -/
theorem StrictWeakOn.mergeSort (h : StrictWeakOn less xs) :
    SortedStably less xs (xs.mergeSort fun a b => !less b a) := by
  -- On the elements of the list alone the comparison is transitive and total.
  have htrans : ∀ a b c : { x // x ∈ xs }, (!less b.1 a.1) = true → (!less c.1 b.1) = true →
      (!less c.1 a.1) = true := by
    intro a b c hab hbc
    rw [Bool.not_eq_true'] at hab hbc ⊢
    exact h.le_trans a.2 b.2 c.2 hab hbc
  have htotal : ∀ a b : { x // x ∈ xs }, ((!less b.1 a.1) || !less a.1 b.1) = true := by
    intro a b
    rw [Bool.or_eq_true, Bool.not_eq_true', Bool.not_eq_true']
    cases hab : less a.1 b.1 with
    | true => exact Or.inl (h.asymm a.2 b.2 hab)
    | false => exact Or.inr rfl
  have hplaced : (xs.attach.map Subtype.val).zipIdx
      = xs.attach.zipIdx.map (Prod.map Subtype.val id) := List.zipIdx_map
  rw [List.attach_map_subtype_val] at hplaced
  refine ⟨(xs.attach.zipIdx.mergeSort (List.zipIdxLE fun a b => !less b.1 a.1)).map
    (Prod.map Subtype.val id), ?_, ?_, ?_⟩
  · rw [hplaced]
    exact (List.mergeSort_perm _ _).map _
  · rw [List.pairwise_map]
    have hdistinct : (xs.attach.zipIdx.mergeSort
        (List.zipIdxLE fun a b => !less b.1 a.1)).Pairwise fun a b => a.2 ≠ b.2 := by
      refine (List.mergeSort_perm _ _).symm.pairwise ?_ fun hne => hne.symm
      rw [← List.pairwise_map (f := Prod.snd), ← List.Nodup, List.zipIdx_map_snd]
      exact List.nodup_range'
    refine ((List.pairwise_mergeSort (List.zipIdxLE_trans htrans) (List.zipIdxLE_total htotal) _).and
      hdistinct).imp ?_
    rintro a b ⟨hle, hne⟩
    rw [List.zipIdxLE] at hle
    cases hba : less b.1.1 a.1.1 <;> cases hab : less a.1.1 b.1.1 <;> simp_all [Ordered]
    omega
  · rw [List.map_map, show Prod.fst ∘ Prod.map Subtype.val id
        = (Subtype.val ∘ Prod.fst : { x // x ∈ xs } × ℕ → α) from rfl, ← List.map_map,
      List.mergeSort_zipIdx, List.map_mergeSort (s := fun a b => !less b a) (fun a _ b _ => rfl),
      List.attach_map_subtype_val]

theorem StrictWeakOn.sortedStably_iff (h : StrictWeakOn less xs) {sorted : List α} :
    SortedStably less xs sorted ↔ sorted = xs.mergeSort fun a b => !less b a := by
  refine ⟨fun hsorted => hsorted.unique h.mergeSort, ?_⟩
  rintro rfl
  exact h.mergeSort

end StableSort
