import Mathlib.Data.List.Basic
import Mathlib.Data.List.Perm.Basic
import Mathlib.Order.Lattice
import Mathlib.Order.Lex

/-!
# Merging streams

`leastHead` is the scan over the heads of some streams that finds the one to go first: the first of
the smallest ones. Where the comparison is that of a key in a linear order, no head is smaller than
the one found.
-/

namespace Merge

variable {α : Type}

/-- The choice between the head found so far and the one of the stream at a position. -/
def earlier (before : α → α → Bool) (best : Option (ℕ × α)) (head : Option α) (position : ℕ) :
    Option (ℕ × α) :=
  match head, best with
  | none, _ => best
  | some a, none => some (position, a)
  | some a, some (_, b) => if before a b then some (position, a) else best

/-- The scan over the heads from a position on. -/
def leastHeadFrom (before : α → α → Bool) : Option (ℕ × α) → ℕ → List (Option α) → Option (ℕ × α)
  | best, _, [] => best
  | best, position, head :: heads =>
    leastHeadFrom before (earlier before best head position) (position + 1) heads

/-- The head to go first, with the position of its stream. -/
def leastHead (before : α → α → Bool) (heads : List (Option α)) : Option (ℕ × α) :=
  leastHeadFrom before none 0 heads

/-- The comparison is that of a key in a linear order. -/
def ByKey {κ : Type} [LinearOrder κ] (before : α → α → Bool) (key : α → κ) : Prop :=
  ∀ a b, before a b = true ↔ key a < key b

section Scan

variable {κ : Type} [LinearOrder κ] {before : α → α → Bool} {key : α → κ}

/-- What the scan has found when it has seen the heads before a position. -/
structure Found (key : α → κ) (heads : List (Option α)) (position : ℕ) (best : Option (ℕ × α)) :
    Prop where
  /-- It is one of the heads. -/
  mem : ∀ n a, best = some (n, a) → n < position ∧ heads[n]? = some (some a)
  /-- No head that was seen is smaller. -/
  least : ∀ n a, n < position → heads[n]? = some (some a) → ∃ m b, best = some (m, b) ∧ key b ≤ key a

/-- One more head is compared with the best one so far. -/
theorem Found.earlier (hkey : ByKey before key) {heads : List (Option α)} {position : ℕ}
    {best : Option (ℕ × α)} {head : Option α} (h : Found key heads position best)
    (hhead : heads[position]? = some head) :
    Found key heads (position + 1) (earlier before best head position) := by
  constructor
  · intro n a hn
    unfold Merge.earlier at hn
    split at hn
    · obtain ⟨hlt, hmem⟩ := h.mem n a hn
      exact ⟨by omega, hmem⟩
    · cases hn
      exact ⟨by omega, hhead⟩
    · split at hn
      · cases hn
        exact ⟨by omega, hhead⟩
      · obtain ⟨hlt, hmem⟩ := h.mem n a hn
        exact ⟨by omega, hmem⟩
  · intro n a hn ha
    rcases Nat.lt_or_eq_of_le (Nat.le_of_lt_succ hn) with hn | rfl
    · -- A head that was seen before: the new choice is not larger than the old one.
      obtain ⟨m, b, rfl, hle⟩ := h.least n a hn ha
      unfold Merge.earlier
      split
      · exact ⟨m, b, rfl, hle⟩
      · rename_i hbest
        cases hbest
      · rename_i c _ _ hbest
        cases hbest
        split
        · rename_i hbefore
          exact ⟨position, c, rfl, ((hkey _ _).mp hbefore).le.trans hle⟩
        · exact ⟨m, b, rfl, hle⟩
    · obtain rfl : head = some a := Option.some.inj (hhead.symm.trans ha)
      unfold Merge.earlier
      split
      · rename_i hnone
        cases hnone
      · rename_i c hc
        cases hc
        exact ⟨n, a, rfl, le_rfl⟩
      · rename_i c m b hc
        cases hc
        split
        · exact ⟨n, a, rfl, le_rfl⟩
        · rename_i hbefore
          exact ⟨m, b, rfl, not_lt.mp fun hlt => hbefore ((hkey _ _).mpr hlt)⟩

/-- The scan over all heads finds a least one. -/
theorem found_leastHead (hkey : ByKey before key) (heads : List (Option α)) :
    Found key heads heads.length (leastHead before heads) := by
  have hscan : ∀ (rest : List (Option α)) (position : ℕ) (best : Option (ℕ × α)),
      Found key heads position best → heads.drop position = rest →
      Found key heads heads.length (leastHeadFrom before best position rest) := by
    intro rest
    induction rest with
    | nil =>
      intro position best h hdrop
      have hlength : heads.length ≤ position := List.drop_eq_nil_iff.mp hdrop
      refine ⟨fun n a hn => ?_, fun n a hn => h.least n a (by omega)⟩
      obtain ⟨-, hmem⟩ := h.mem n a hn
      exact ⟨(List.getElem?_eq_some_iff.mp hmem).1, hmem⟩
    | cons head rest ih =>
      intro position best h hdrop
      have hhead : heads[position]? = some head := by
        rw [← List.head?_drop, hdrop, List.head?_cons]
      refine ih (position + 1) _ (h.earlier hkey hhead) ?_
      rw [← List.tail_drop, hdrop, List.tail_cons]
  exact hscan heads 0 none ⟨fun _ _ h => (by cases h), fun _ _ h => (by omega)⟩ rfl

theorem leastHead_mem (hkey : ByKey before key) {heads : List (Option α)} {n : ℕ} {a : α}
    (h : leastHead before heads = some (n, a)) : heads[n]? = some (some a) :=
  ((found_leastHead hkey heads).mem n a h).2

theorem leastHead_le (hkey : ByKey before key) {heads : List (Option α)} {n m : ℕ} {a b : α}
    (h : leastHead before heads = some (n, a)) (hb : heads[m]? = some (some b)) : key a ≤ key b := by
  obtain ⟨k, c, hc, hle⟩ := (found_leastHead hkey heads).least m b
    (List.getElem?_eq_some_iff.mp hb).1 hb
  cases h.symm.trans hc
  exact hle

end Scan

end Merge
