import HftRecorder.Lib.SlotRing

/-!
# The ring of the native capture

`SpscRing.hpp`: a ring with one writer and one reader whose two positions are kept reduced to the
capacity, a power of two, so that one slot stays free. Each position is stored by one thread only.
The loads and stores of `tryPush` and `tryPop` are separate operations, so that two threads can run
them interleaved. `SpscRing.Tracks` says that the ring is the one of `SlotRing` with its counters
reduced.
-/

namespace HftRecorder.Capture

/-- `SpscRing`, with the logarithm of its capacity. -/
structure SpscRing (bits : ℕ) (α : Type) where
  slots : ℕ → α
  head : ℕ := 0
  tail : ℕ := 0

namespace SpscRing

variable {bits : ℕ} {α : Type}

/-- The position after another: `(position + 1) & kMask`. -/
def next (bits position : ℕ) : ℕ := (position + 1) &&& (2 ^ bits - 1)

/-- The test of `tryPush`. -/
def full (r : SpscRing bits α) : Bool := next bits r.head = r.tail

/-- The test of `tryPop`. -/
def empty (r : SpscRing bits α) : Bool := r.tail = r.head

/-- The store of `tryPush` into the slot. -/
def store (r : SpscRing bits α) (value : α) : SpscRing bits α :=
  { r with slots := Function.update r.slots r.head value }

/-- The store of `tryPush` into `head_`. -/
def publish (r : SpscRing bits α) : SpscRing bits α := { r with head := next bits r.head }

/-- The load of `tryPop` from the slot. -/
def front (r : SpscRing bits α) : α := r.slots r.tail

/-- The store of `tryPop` into `tail_`. -/
def advance (r : SpscRing bits α) : SpscRing bits α := { r with tail := next bits r.tail }

/-- The ring is a ring with counters, reduced to the capacity, with a slot free. -/
structure Tracks (r : SpscRing bits α) (q : SlotRing α) : Prop where
  capacity_eq : q.capacity = 2 ^ bits
  slots_eq : q.slots = r.slots
  head_eq : r.head = q.written % 2 ^ bits
  tail_eq : r.tail = q.read % 2 ^ bits
  read_le : q.read ≤ q.written
  written_lt : q.written < q.read + 2 ^ bits

variable {r : SpscRing bits α} {q : SlotRing α}

theorem next_mod (bits n : ℕ) : next bits (n % 2 ^ bits) = (n + 1) % 2 ^ bits := by
  rw [next, Nat.and_two_pow_sub_one_eq_mod, Nat.mod_add_mod]

theorem tracks_empty (bits : ℕ) (slots : ℕ → α) :
    Tracks ({ slots } : SpscRing bits α) { capacity := 2 ^ bits, slots } :=
  ⟨rfl, rfl, (Nat.zero_mod _).symm, (Nat.zero_mod _).symm, le_rfl,
    (Nat.zero_add _).symm ▸ Nat.two_pow_pos bits⟩

theorem Tracks.empty_iff (h : r.Tracks q) : r.empty = true ↔ q.read = q.written := by
  rw [empty, decide_eq_true_eq, h.tail_eq, h.head_eq]
  exact ⟨SlotRing.eq_of_mod_eq h.read_le h.written_lt, fun heq => by rw [heq]⟩

theorem Tracks.room (h : r.Tracks q) (hfull : r.full = false) :
    q.written + 1 < q.read + q.capacity := by
  rw [full, decide_eq_false_iff_not, h.head_eq, h.tail_eq, next_mod] at hfull
  rw [h.capacity_eq]
  have hlt := h.written_lt
  by_contra hge
  have heq : q.written + 1 = q.read + 2 ^ bits := by omega
  rw [heq, Nat.add_mod_right] at hfull
  exact hfull rfl

theorem Tracks.front_eq (h : r.Tracks q) : r.front = q.item q.read := by
  rw [front, SlotRing.item, h.slots_eq, h.capacity_eq, h.tail_eq]

theorem Tracks.store (h : r.Tracks q) (value : α) : (r.store value).Tracks (q.store value) := by
  refine ⟨h.capacity_eq, ?_, h.head_eq, h.tail_eq, h.read_le, h.written_lt⟩
  change Function.update q.slots (q.written % q.capacity) value =
    Function.update r.slots r.head value
  rw [h.slots_eq, h.capacity_eq, h.head_eq]

theorem Tracks.publish (h : r.Tracks q) (hroom : q.written + 1 < q.read + q.capacity) :
    r.publish.Tracks q.publish := by
  refine ⟨h.capacity_eq, h.slots_eq, ?_, h.tail_eq, h.read_le.trans (Nat.le_succ _), ?_⟩
  · change next bits r.head = (q.written + 1) % 2 ^ bits
    rw [h.head_eq, next_mod]
  · rw [h.capacity_eq] at hroom
    exact hroom

theorem Tracks.advance (h : r.Tracks q) (hlt : q.read < q.written) :
    r.advance.Tracks q.advance := by
  refine ⟨h.capacity_eq, h.slots_eq, h.head_eq, ?_, hlt, ?_⟩
  · change next bits r.tail = (q.read + 1) % 2 ^ bits
    rw [h.tail_eq, next_mod]
  · have := h.written_lt
    change q.written < q.read + 1 + 2 ^ bits
    omega

end SpscRing

end HftRecorder.Capture
