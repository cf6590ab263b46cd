import Mathlib.Data.List.Basic
import Mathlib.Data.List.TakeWhile

/-!
# Searching for the end of a partition

`std::lower_bound` and `std::upper_bound` look for the place in a list where a predicate ends to hold.
They promise to find it if the list is partitioned, with all elements that have the predicate in front;
on other lists they promise nothing. `PartitionSearch` is any search with this promise.
-/

namespace PartitionPoint

variable {α : Type} {p : α → Bool} {xs : List α}

/-- All elements with the predicate are in front of all others. -/
def Partitioned (p : α → Bool) (xs : List α) : Prop := ∀ x ∈ xs.dropWhile p, p x = false

instance (p : α → Bool) (xs : List α) : Decidable (Partitioned p xs) :=
  inferInstanceAs (Decidable (∀ x ∈ xs.dropWhile p, p x = false))

/-- A search that finds the end of the front part of a partitioned list. -/
structure PartitionSearch where
  point : ∀ {α : Type}, (α → Bool) → List α → ℕ
  point_eq : ∀ {α : Type} {p : α → Bool} {xs : List α}, Partitioned p xs →
    point p xs = (xs.takeWhile p).length

/-- The search that gives up on a list that is not partitioned. -/
def cautious : PartitionSearch where
  point p xs := if Partitioned p xs then (xs.takeWhile p).length else 0
  point_eq h := if_pos h

/-- A list is partitioned if every element has the predicate that stands before one that has it. -/
theorem partitioned_of_pairwise (h : xs.Pairwise fun a b => p b = true → p a = true) :
    Partitioned p xs := by
  induction xs with
  | nil => exact fun x hx => absurd hx List.not_mem_nil
  | cons x xs ih =>
    rw [List.pairwise_cons] at h
    unfold Partitioned
    rw [List.dropWhile_cons]
    split
    · exact ih h.2
    · rename_i hx
      intro y hy
      rcases List.mem_cons.mp hy with rfl | hy
      · exact eq_false_of_ne_true hx
      · exact eq_false_of_ne_true fun hpy => hx (h.1 y hy hpy)

/-- An element without the predicate in front of one with it: the list is not partitioned. -/
theorem not_partitioned {a b : α} (hab : [a, b].Sublist xs) (ha : p a = false) (hb : p b = true) :
    ¬ Partitioned p xs := by
  intro h
  induction xs with
  | nil => cases hab
  | cons x xs ih =>
    unfold Partitioned at h
    rw [List.dropWhile_cons] at h
    split at h
    · rename_i hx
      -- The first element has the predicate, so the two come later.
      cases hab with
      | cons _ hrest => exact ih hrest h
      | cons_cons _ _ =>
        rw [ha] at hx
        cases hx
    · have hmem : b ∈ x :: xs := hab.subset (by simp)
      rw [h b hmem] at hb
      cases hb

theorem Partitioned.takeWhile_eq (h : Partitioned p xs) : xs.takeWhile p = xs.filter p := by
  have hback : (xs.dropWhile p).filter p = [] := by
    rw [List.filter_eq_nil_iff]
    exact fun x hx => by simp [h x hx]
  have hfront : (xs.takeWhile p).filter p = xs.takeWhile p :=
    List.filter_eq_self.mpr fun x hx => List.mem_takeWhile_imp hx
  conv_rhs => rw [← List.takeWhile_append_dropWhile (p := p) (l := xs), List.filter_append, hback,
    hfront, List.append_nil]

theorem Partitioned.dropWhile_eq (h : Partitioned p xs) : xs.dropWhile p = xs.filter fun x => !p x := by
  have hfront : (xs.takeWhile p).filter (fun x => !p x) = [] := by
    rw [List.filter_eq_nil_iff]
    exact fun x hx => by simp [List.mem_takeWhile_imp hx]
  have hback : (xs.dropWhile p).filter (fun x => !p x) = xs.dropWhile p :=
    List.filter_eq_self.mpr fun x hx => by simp [h x hx]
  conv_rhs => rw [← List.takeWhile_append_dropWhile (p := p) (l := xs), List.filter_append, hback,
    hfront, List.nil_append]

theorem PartitionSearch.take_point (search : PartitionSearch) (h : Partitioned p xs) :
    xs.take (search.point p xs) = xs.filter p := by
  rw [search.point_eq h, ← h.takeWhile_eq]
  exact List.prefix_iff_eq_take.mp (List.takeWhile_prefix p) |>.symm

theorem PartitionSearch.drop_point (search : PartitionSearch) (h : Partitioned p xs) :
    xs.drop (search.point p xs) = xs.filter fun x => !p x := by
  rw [search.point_eq h, ← h.dropWhile_eq]
  calc xs.drop (xs.takeWhile p).length
      = (xs.takeWhile p ++ xs.dropWhile p).drop (xs.takeWhile p).length := by
        rw [List.takeWhile_append_dropWhile]
    _ = xs.dropWhile p := List.drop_left

end PartitionPoint
