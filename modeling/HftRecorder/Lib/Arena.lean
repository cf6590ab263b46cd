import HftRecorder.Lib.SlotRing

/-!
# Arenas

A ring of cells from which regions of consecutive cells are given out in order and given back in
order. Positions only grow, and a position's cell is its remainder by the capacity; a region never
wraps, so that the positions skipped at the end of the ring belong to no region. `Placed` says that
regions lie one after another between two positions and that the cells have what was written there.
-/

namespace Arena

variable {α : Type}

/-- Items that lie in consecutive cells, from a position on. -/
structure Region (α : Type) where
  start : ℕ
  items : List α

def Region.stop (r : Region α) : ℕ := r.start + r.items.length

/-- The cells of a region have its items. -/
structure Region.Written (capacity : ℕ) (cells : ℕ → α) (r : Region α) : Prop where
  fits : r.start % capacity + r.items.length ≤ capacity
  cell_eq : ∀ i a, r.items[i]? = some a → cells (r.start % capacity + i) = a

/-- The regions lie in order between two positions, and their cells have their items. -/
def Placed (capacity : ℕ) (cells : ℕ → α) : ℕ → List (Region α) → ℕ → Prop
  | low, [], high => low ≤ high
  | low, r :: rs, high =>
    low ≤ r.start ∧ r.Written capacity cells ∧ Placed capacity cells r.stop rs high

variable {capacity low high : ℕ} {cells : ℕ → α} {r : Region α} {rs : List (Region α)}

theorem Placed.le (h : Placed capacity cells low rs high) : low ≤ high := by
  induction rs generalizing low with
  | nil => exact h
  | cons r rs ih => exact h.1.trans ((Nat.le_add_right _ _).trans (ih h.2.2))

theorem Region.Written.mod_eq (h : r.Written capacity cells) {i : ℕ} (hi : i < r.items.length) :
    (r.start + i) % capacity = r.start % capacity + i := by
  have hlt : r.start % capacity + i < capacity := by
    have := h.fits
    omega
  rw [← Nat.mod_add_mod, Nat.mod_eq_of_lt hlt]

theorem Region.Written.update (h : r.Written capacity cells) {position : ℕ}
    (hstop : r.stop ≤ position) (hlt : position < r.start + capacity) (a : α) :
    r.Written capacity (Function.update cells (position % capacity) a) := by
  refine ⟨h.fits, fun i b hi => ?_⟩
  have hlen := (List.getElem?_eq_some_iff.mp hi).1
  have hbefore : r.start + i < position :=
    (Nat.add_lt_add_left hlen _).trans_le hstop
  have hne : r.start % capacity + i ≠ position % capacity := fun heq =>
    hbefore.ne (SlotRing.eq_of_mod_eq hbefore.le (by omega) ((h.mod_eq hlen).trans heq))
  rw [Function.update_of_ne hne]
  exact h.cell_eq i b hi

/-- Writing at a position after all regions, less than a capacity after the first position, leaves
them. -/
theorem Placed.update (h : Placed capacity cells low rs high) {position : ℕ}
    (hhigh : high ≤ position) (hlt : position < low + capacity) (a : α) :
    Placed capacity (Function.update cells (position % capacity) a) low rs high := by
  induction rs generalizing low with
  | nil => exact h
  | cons r rs ih =>
    have hstop : low ≤ r.stop := h.1.trans (Nat.le_add_right _ _)
    exact ⟨h.1, h.2.1.update (h.2.2.le.trans hhigh) (by have := h.1; omega) a,
      ih h.2.2 (by omega)⟩

theorem Placed.concat (h : Placed capacity cells low rs high) (hr : r.Written capacity cells)
    (hle : high ≤ r.start) : Placed capacity cells low (rs ++ [r]) r.stop := by
  induction rs generalizing low with
  | nil => exact ⟨le_trans h hle, hr, le_rfl⟩
  | cons q rs ih => exact ⟨h.1, h.2.1, ih h.2.2⟩

theorem Placed.of_append {rs' : List (Region α)} (h : Placed capacity cells low (rs ++ rs') high) :
    Placed capacity cells low rs high := by
  induction rs generalizing low with
  | nil => exact Placed.le h
  | cons r rs ih => exact ⟨h.1, h.2.1, ih h.2.2⟩

theorem Placed.written (h : Placed capacity cells low rs high) (hr : r ∈ rs) :
    r.Written capacity cells := by
  induction rs generalizing low with
  | nil => cases hr
  | cons q rs ih =>
    rcases List.mem_cons.mp hr with rfl | hmem
    · exact h.2.1
    · exact ih h.2.2 hmem

theorem Region.Written.concat {start : ℕ} {items : List α}
    (h : Region.Written capacity cells ⟨start, items⟩) (a : α)
    (hfits : start % capacity + (items.length + 1) ≤ capacity) :
    Region.Written capacity (Function.update cells (start % capacity + items.length) a)
      ⟨start, items ++ [a]⟩ := by
  have hmod : (start + items.length) % capacity = start % capacity + items.length := by
    rw [← Nat.mod_add_mod, Nat.mod_eq_of_lt (by omega)]
  have hbefore := h.update (le_refl (start + items.length)) (by simp only; omega) a
  rw [hmod] at hbefore
  refine ⟨by rw [List.length_append, List.length_singleton]; exact hfits, fun i b hi => ?_⟩
  rcases lt_or_ge i items.length with hlt | hge
  · rw [List.getElem?_append_left hlt] at hi
    exact hbefore.cell_eq i b hi
  · obtain ⟨rfl, rfl⟩ := SlotRing.last_of_concat hge hi
    exact Function.update_self ..

end Arena
