import Mathlib.Algebra.GroupWithZero.Nat
import Mathlib.Data.List.Basic
import Mathlib.Data.List.Nodup

/-!
# Lists

Facts about counts, sums, and passes over lists that Mathlib does not have in this form.
-/

namespace Lists

variable {α β : Type}

/-- A predicate that comes to hold of one more member of a list without repetitions. -/
theorem countP_eq_succ {l : List α} (hl : l.Nodup) {p q : α → Bool} {a : α} (ha : a ∈ l)
    (hp : p a = false) (hq : q a = true) (hother : ∀ b, b ≠ a → q b = p b) :
    l.countP q = l.countP p + 1 := by
  induction l with
  | nil => cases ha
  | cons b l ih =>
    obtain ⟨hb, hl⟩ := List.nodup_cons.mp hl
    rcases List.mem_cons.mp ha with rfl | ha
    · have htail : l.countP q = l.countP p :=
        List.countP_congr fun c hc => by rw [hother c fun h => hb (h ▸ hc)]
      rw [List.countP_cons_of_pos hq, List.countP_cons_of_neg (by simp [hp]), htail]
    · have hne : b ≠ a := fun h => hb (h ▸ ha)
      rw [List.countP_cons, List.countP_cons, ih hl ha, hother b hne]
      omega

/-- Replacing an entry of a list by one with a smaller measure makes the sum of the measures
smaller. -/
theorem sum_map_set_lt (f : α → ℕ) {l : List α} {n : ℕ} {a b : α} (h : l[n]? = some a)
    (hb : f b < f a) : ((l.set n b).map f).sum < (l.map f).sum := by
  induction l generalizing n with
  | nil => cases h
  | cons c l ih =>
    cases n with
    | zero =>
      cases h
      simpa using hb
    | succ n => simpa using ih h

/-- A pass over the numbered entries of a list that sets the ones with a property. -/
theorem foldl_set_zipIdx (p : α → Prop) [DecidablePred p] (v : β) (g : α → β)
    (done : List β) (l : List α) :
    (l.zipIdx done.length).foldl (fun w e => if p e.1 then w.set e.2 v else w) (done ++ l.map g) =
      done ++ l.map fun a => if p a then v else g a := by
  induction l generalizing done with
  | nil => rfl
  | cons a l ih =>
    have hstep : (if p a then (done ++ g a :: l.map g).set done.length v else done ++ g a :: l.map g) =
        (done ++ [if p a then v else g a]) ++ l.map g := by
      split_ifs <;> simp
    have hrest := ih (done ++ [if p a then v else g a])
    rw [List.length_append, List.length_singleton] at hrest
    rw [List.zipIdx_cons, List.foldl_cons, List.map_cons, hstep, hrest, List.append_assoc]
    rfl

/-- Pieces that are not empty are together at least as long as there are pieces. -/
theorem length_le_flatMap (f : α → List β) (hf : ∀ a, 0 < (f a).length) (l : List α) :
    l.length ≤ (l.flatMap f).length := by
  induction l with
  | nil => simp
  | cons a l ih =>
    have ha := hf a
    simp only [List.length_cons, List.flatMap_cons, List.length_append]
    omega

end Lists
