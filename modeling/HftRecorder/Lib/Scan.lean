import HftRecorder.Lib.ByteLayout

/-!
# Scanning a string of bytes

A format with parts of variable length is read from the front. `take` is the next few bytes with
what follows them, `takeLE` the number that they hold, and `many` a counted list whose elements are
read by a given scan. Each has two lemmas: what was written is read back whatever follows it, and
what was read is what was written.
-/

namespace ByteLayout

/-- The next `n` bytes and what follows them. -/
def take (n : ℕ) (b : Bytes) : Option (Bytes × Bytes) :=
  if n > b.length then none else some (List.take n b, List.drop n b)

variable {n : ℕ}

theorem take_append {a : Bytes} (h : a.length = n) (rest : Bytes) :
    take n (a ++ rest) = some (a, rest) := by
  have hlen : ¬n > (a ++ rest).length := by simp; omega
  rw [take, if_neg hlen, List.take_left' h, List.drop_left' h]

variable {b rest : Bytes}

theorem of_take {a : Bytes} (h : take n b = some (a, rest)) : b = a ++ rest ∧ a.length = n := by
  unfold take at h
  split at h
  · cases h
  · cases h
    exact ⟨(List.take_append_drop n b).symm, by simp; omega⟩

/-- The number in the next `n` bytes and what follows them. -/
def takeLE (n : ℕ) (b : Bytes) : Option (ℕ × Bytes) :=
  (take n b).map fun (a, rest) => (ofLE a, rest)

theorem takeLE_append {v : ℕ} (h : v < 256 ^ n) (rest : Bytes) :
    takeLE n (toLE n v ++ rest) = some (v, rest) := by
  rw [takeLE, take_append (length_toLE n v), Option.map_some]
  simp only [ofLE_toLE_of_lt h]

theorem of_takeLE {v : ℕ} (h : takeLE n b = some (v, rest)) :
    b = toLE n v ++ rest ∧ v < 256 ^ n := by
  obtain ⟨⟨a, rest'⟩, htake, heq⟩ := Option.map_eq_some_iff.mp h
  cases heq
  obtain ⟨rfl, rfl⟩ := of_take htake
  exact ⟨by rw [toLE_ofLE], ofLE_lt a⟩

def takeUInt8 (b : Bytes) : Option (UInt8 × Bytes) :=
  (takeLE 1 b).map fun (n, rest) => (UInt8.ofNat n, rest)

theorem takeUInt8_append (v : UInt8) (rest : Bytes) :
    takeUInt8 (toLE 1 v.toNat ++ rest) = some (v, rest) := by
  rw [takeUInt8, takeLE_append (by simpa using v.toNat_lt), Option.map_some]
  simp only [UInt8.ofNat_toNat]

theorem of_takeUInt8 {v : UInt8} (h : takeUInt8 b = some (v, rest)) :
    b = toLE 1 v.toNat ++ rest := by
  obtain ⟨⟨n, rest'⟩, htake, heq⟩ := Option.map_eq_some_iff.mp h
  cases heq
  obtain ⟨rfl, hn⟩ := of_takeLE htake
  rw [UInt8.toNat_ofNat_of_lt' (by simpa using hn)]

def takeUInt64 (b : Bytes) : Option (UInt64 × Bytes) :=
  (takeLE 8 b).map fun (n, rest) => (UInt64.ofNat n, rest)

theorem takeUInt64_append (v : UInt64) (rest : Bytes) :
    takeUInt64 (toLE 8 v.toNat ++ rest) = some (v, rest) := by
  rw [takeUInt64, takeLE_append (by simpa using v.toNat_lt), Option.map_some]
  simp only [UInt64.ofNat_toNat]

theorem of_takeUInt64 {v : UInt64} (h : takeUInt64 b = some (v, rest)) :
    b = toLE 8 v.toNat ++ rest := by
  obtain ⟨⟨n, rest'⟩, htake, heq⟩ := Option.map_eq_some_iff.mp h
  cases heq
  obtain ⟨rfl, hn⟩ := of_takeLE htake
  rw [UInt64.toNat_ofNat_of_lt' (by simpa using hn)]

/-! ## Counted lists -/

variable {ε α : Type}

/-- The given number of elements, each read by `one`, and what follows the last. -/
def many (one : Bytes → Except ε (α × Bytes)) : ℕ → Bytes → Except ε (List α × Bytes)
  | 0, b => .ok ([], b)
  | n + 1, b =>
    match one b with
    | .error e => .error e
    | .ok (a, rest) =>
      match many one n rest with
      | .error e => .error e
      | .ok (as, rest) => .ok (a :: as, rest)

/-- The elements of a list, written one after the other. -/
def written (write : α → Bytes) (l : List α) : Bytes := (l.map write).flatten

@[simp]
theorem written_cons (write : α → Bytes) (a : α) (l : List α) :
    written write (a :: l) = write a ++ written write l := rfl

theorem written_append (write : α → Bytes) (a b : List α) :
    written write (a ++ b) = written write a ++ written write b := by
  rw [written, written, written, List.map_append, List.flatten_append]

variable {one : Bytes → Except ε (α × Bytes)}

theorem many_append {write : α → Bytes} {l : List α}
    (h : ∀ a ∈ l, ∀ rest, one (write a ++ rest) = .ok (a, rest)) (rest : Bytes) :
    many one l.length (written write l ++ rest) = .ok (l, rest) := by
  induction l with
  | nil => rfl
  | cons a l ih =>
    have htail := ih fun b hb => h b (by simp [hb])
    simp only [List.length_cons, many, written_cons, List.append_assoc,
      h a List.mem_cons_self, htail]

/-- The bytes of a list that was read are those of its elements, and each element has what `one`
gives the elements that it reads. -/
theorem of_many {write : α → Bytes} {P : α → Prop}
    (hone : ∀ {b a rest}, one b = .ok (a, rest) → b = write a ++ rest ∧ P a) {l : List α}
    (h : many one n b = .ok (l, rest)) :
    b = written write l ++ rest ∧ l.length = n ∧ ∀ a ∈ l, P a := by
  induction n generalizing b l with
  | zero =>
    cases h
    exact ⟨rfl, rfl, fun _ ha => by cases ha⟩
  | succ n ih =>
    unfold many at h
    split at h
    · cases h
    rename_i a mid hhead
    split at h
    · cases h
    rename_i as last htail
    cases h
    obtain ⟨rfl, ha⟩ := hone hhead
    obtain ⟨rfl, hlen, hall⟩ := ih htail
    exact ⟨by simp, by simp [hlen], fun x hx => by
      rcases List.mem_cons.mp hx with rfl | hx
      · exact ha
      · exact hall x hx⟩

theorem many_error {Q : ε → Prop} (hone : ∀ {b e}, one b = .error e → Q e) {e : ε}
    (h : many one n b = .error e) : Q e := by
  induction n generalizing b with
  | zero => cases h
  | succ n ih =>
    unfold many at h
    split at h
    · cases h
      exact hone ‹_›
    split at h
    · cases h
      exact ih ‹_›
    · cases h

end ByteLayout
