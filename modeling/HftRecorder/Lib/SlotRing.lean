import Mathlib.Data.List.Basic
import Mathlib.Data.Nat.ModEq
import Mathlib.Logic.Function.Basic

/-!
# Rings

A ring with one writer and one reader: a fixed number of slots and two counters that only grow. The
writer stores into the slot of the next position and then publishes it; the reader takes the item at
its position and then gives the slot free. `SlotRing.Holds r items` says that `items` is everything that
was published, in order, and that the slots from the reader's position on still have it.
-/

/-- A ring of slots, the number of items published, and the number of items given free. -/
structure SlotRing (α : Type) where
  capacity : ℕ
  slots : ℕ → α
  written : ℕ := 0
  read : ℕ := 0

namespace SlotRing

variable {α : Type}

/-- Store an item in the slot of the next position. -/
def store (r : SlotRing α) (a : α) : SlotRing α :=
  { r with slots := Function.update r.slots (r.written % r.capacity) a }

def publish (r : SlotRing α) : SlotRing α := { r with written := r.written + 1 }

def item (r : SlotRing α) (position : ℕ) : α := r.slots (position % r.capacity)

/-- Give the slot of the reader's position free. -/
def advance (r : SlotRing α) : SlotRing α := { r with read := r.read + 1 }

def hasRoom (r : SlotRing α) : Bool := r.written - r.read < r.capacity

/-- The items are what was published, and the slots that are not free have them. -/
structure Holds (r : SlotRing α) (items : List α) : Prop where
  written_eq : r.written = items.length
  read_le : r.read ≤ r.written
  written_le : r.written ≤ r.read + r.capacity
  slot_eq : ∀ i a, r.read ≤ i → items[i]? = some a → r.item i = a

variable {r : SlotRing α} {items : List α} {a : α}

theorem eq_of_mod_eq {m n capacity : ℕ} (hle : m ≤ n) (hlt : n < m + capacity)
    (h : m % capacity = n % capacity) : m = n := by
  have hdvd : capacity ∣ n - m := (Nat.modEq_iff_dvd' hle).mp h
  rcases Nat.eq_zero_or_pos (n - m) with hzero | hpos
  · omega
  · have := Nat.le_of_dvd hpos hdvd
    omega

theorem holds_empty (capacity : ℕ) (slots : ℕ → α) : ({ capacity, slots } : SlotRing α).Holds [] :=
  ⟨rfl, le_rfl, Nat.zero_le _, fun i a _ h => by cases h⟩

theorem Holds.item_eq (h : r.Holds items) {i : ℕ} (hread : r.read ≤ i) (hi : i < r.written) :
    items[i]? = some (r.item i) := by
  have hlt : i < items.length := h.written_eq ▸ hi
  rw [List.getElem?_eq_getElem hlt]
  exact congrArg some (h.slot_eq i _ hread (List.getElem?_eq_getElem hlt)).symm

theorem Holds.store (h : r.Holds items) (hroom : r.written < r.read + r.capacity) (a : α) :
    (r.store a).Holds items := by
  refine ⟨h.written_eq, h.read_le, h.written_le, fun i b hread hi => ?_⟩
  have hlt : i < r.written := by
    rw [h.written_eq]
    exact (List.getElem?_eq_some_iff.mp hi).1
  have hne : i % r.capacity ≠ r.written % r.capacity := fun heq =>
    hlt.ne (eq_of_mod_eq hlt.le (hroom.trans_le (Nat.add_le_add_right hread _)) heq)
  change Function.update r.slots (r.written % r.capacity) a (i % r.capacity) = b
  rw [Function.update_of_ne hne]
  exact h.slot_eq i b hread hi

theorem item_store_written (r : SlotRing α) (a : α) : (r.store a).item r.written = a :=
  Function.update_self ..

/-- What a list has behind its items once one is appended is that one. -/
theorem last_of_concat {b : α} {i : ℕ} (hge : items.length ≤ i) (hi : (items ++ [a])[i]? = some b) :
    i = items.length ∧ a = b := by
  have hlt := (List.getElem?_eq_some_iff.mp hi).1
  rw [List.length_append, List.length_singleton] at hlt
  obtain rfl : i = items.length := by omega
  rw [List.getElem?_concat_length] at hi
  exact ⟨rfl, Option.some.inj hi⟩

theorem Holds.publish (h : r.Holds items) (hroom : r.written < r.read + r.capacity)
    (ha : r.item r.written = a) : r.publish.Holds (items ++ [a]) := by
  refine ⟨?_, h.read_le.trans (Nat.le_succ _), hroom, fun i b hread hi => ?_⟩
  · rw [List.length_append, List.length_singleton, ← h.written_eq]
    rfl
  · rcases lt_or_ge i items.length with hlt | hge
    · rw [List.getElem?_append_left hlt] at hi
      exact h.slot_eq i b hread hi
    · obtain ⟨rfl, rfl⟩ := last_of_concat hge hi
      rw [← h.written_eq]
      exact ha

theorem Holds.advance (h : r.Holds items) (hlt : r.read < r.written) : r.advance.Holds items :=
  ⟨h.written_eq, hlt, (h.written_le.trans (by omega) : r.written ≤ r.read + 1 + r.capacity),
    fun i a hread hi => h.slot_eq i a (le_trans (Nat.le_succ _) hread) hi⟩

end SlotRing
