import HftRecorder.Lib.ByteLayout

/-!
# Strings that differ in one place

`Tampered l l'` says that `l'` is `l` with one entry replaced by another. A checksum that folds an
injective step over a string tells such strings apart (`Tampered.foldl_ne`), and so does a struct
that carries the checksum of its own representation with the checksum's member set to zero
(`selfCheck_of_tampered`): a change of the member leaves what is checked as it is, and a change
elsewhere leaves the member.
-/

open ByteLayout

/-- The second list is the first with one entry replaced by a different one. -/
def Tampered {α : Type} (l l' : List α) : Prop :=
  ∃ before x y after, x ≠ y ∧ l = before ++ x :: after ∧ l' = before ++ y :: after

namespace Tampered

variable {α σ : Type} {l l' a b : List α}

theorem set {i : ℕ} {y : α} (hi : i < l.length) (hy : l[i]? ≠ some y) : Tampered l (l.set i y) := by
  refine ⟨l.take i, l.get ⟨i, hi⟩, y, l.drop (i + 1), ?_, ?_, ?_⟩
  · rintro rfl
    exact hy (List.getElem?_eq_getElem hi)
  · exact (List.take_append_drop i l).symm.trans
      (congrArg (l.take i ++ ·) (List.drop_eq_getElem_cons hi))
  · exact List.set_eq_take_append_cons_drop.trans (if_pos hi)

theorem length_eq (h : Tampered l l') : l'.length = l.length := by
  obtain ⟨before, x, y, after, -, rfl, rfl⟩ := h
  rw [List.length_append, List.length_append, List.length_cons, List.length_cons]

theorem ne (h : Tampered l l') : l ≠ l' := by
  obtain ⟨before, x, y, after, hne, rfl, rfl⟩ := h
  intro heq
  have hcons := List.append_cancel_left heq
  exact hne (List.cons.inj hcons).1

theorem append_left (h : Tampered l l') (a : List α) : Tampered (a ++ l) (a ++ l') := by
  obtain ⟨before, x, y, after, hne, rfl, rfl⟩ := h
  exact ⟨a ++ before, x, y, after, hne, (List.append_assoc ..).symm, (List.append_assoc ..).symm⟩

theorem append_right (h : Tampered l l') (a : List α) : Tampered (l ++ a) (l' ++ a) := by
  obtain ⟨before, x, y, after, hne, rfl, rfl⟩ := h
  exact ⟨before, x, y, after ++ a, hne, List.append_assoc .., List.append_assoc ..⟩

theorem of_append (h : Tampered (a ++ b) l') :
    (∃ a', Tampered a a' ∧ l' = a' ++ b) ∨ ∃ b', Tampered b b' ∧ l' = a ++ b' := by
  obtain ⟨before, x, y, after, hne, heq, rfl⟩ := h
  rcases List.append_eq_append_iff.mp heq with ⟨middle, rfl, rfl⟩ | ⟨middle, rfl, hmiddle⟩
  · exact .inr ⟨middle ++ y :: after, ⟨middle, x, y, after, hne, rfl, rfl⟩,
      List.append_assoc ..⟩
  · cases middle with
    | nil =>
      rw [List.append_nil] at *
      exact .inr ⟨y :: after, ⟨[], x, y, after, hne, hmiddle.symm, rfl⟩, rfl⟩
    | cons first middle =>
      obtain ⟨rfl, rfl⟩ := List.cons.inj hmiddle
      refine .inl ⟨before ++ y :: middle, ⟨before, x, y, middle, hne, rfl, rfl⟩, ?_⟩
      rw [List.append_assoc, List.cons_append]
      rfl

theorem take_drop (h : Tampered l l') (n : ℕ) :
    (Tampered (l.take n) (l'.take n) ∧ l'.drop n = l.drop n) ∨
      (l'.take n = l.take n ∧ Tampered (l.drop n) (l'.drop n)) := by
  rcases le_or_gt n l.length with hn | hn
  · have hlength : (l.take n).length = n := by rw [List.length_take, min_eq_left hn]
    rw [← List.take_append_drop n l] at h
    rcases h.of_append with ⟨a', ha, rfl⟩ | ⟨b', hb, rfl⟩
    · have hlength' : a'.length = n := ha.length_eq.trans hlength
      rw [List.take_left' hlength', List.drop_left' hlength']
      exact .inl ⟨ha, rfl⟩
    · rw [List.take_left' hlength, List.drop_left' hlength]
      exact .inr ⟨rfl, hb⟩
  · have hn' : l'.length ≤ n := h.length_eq ▸ hn.le
    rw [List.take_of_length_le hn.le, List.take_of_length_le hn', List.drop_eq_nil_of_le hn.le,
      List.drop_eq_nil_of_le hn']
    exact .inl ⟨h, rfl⟩

theorem foldl_injective {f : σ → α → σ} (hstate : ∀ x, Function.Injective fun s => f s x)
    (after : List α) : Function.Injective fun s => after.foldl f s := by
  induction after with
  | nil => exact fun _ _ h => h
  | cons x after ih => exact fun _ _ h => hstate x (ih h)

/-- A fold tells tampered strings apart if its step is injective in the state and in the entry. -/
theorem foldl_ne {f : σ → α → σ} (hstate : ∀ x, Function.Injective fun s => f s x)
    (hentry : ∀ s, Function.Injective (f s)) (h : Tampered l l') (s : σ) :
    l.foldl f s ≠ l'.foldl f s := by
  obtain ⟨before, x, y, after, hne, rfl, rfl⟩ := h
  rw [List.foldl_append, List.foldl_append, List.foldl_cons, List.foldl_cons]
  -- From different states the rest of the string leads to different states.
  exact fun heq => hne (hentry _ (foldl_injective hstate after heq))

end Tampered

/-! ## Structs with their own checksum -/

namespace ByteLayout

theorem eq_of_ofLE_eq {a b : Bytes} (hlength : a.length = b.length) (h : ofLE a = ofLE b) :
    a = b := by
  rw [← toLE_ofLE a, ← toLE_ofLE b, hlength, h]

theorem getElem?_unpack {ws : List ℕ} {k : ℕ} (b : Bytes) (hk : k < ws.length) :
    (unpack ws b)[k]? = some (field b (ws.take k).sum (ws.getD k 0)) := by
  induction ws generalizing k b with
  | nil => cases hk
  | cons w ws ih =>
    cases k with
    | zero => rfl
    | succ k =>
      rw [unpack, List.getElem?_cons_succ, ih (b.drop w) (Nat.lt_of_succ_lt_succ hk),
        List.take_succ_cons, List.sum_cons, List.getD_cons_succ, field, field, List.drop_drop]

/-- Packing the members of a struct with one of them replaced. -/
theorem pack_set_unpack {ws : List ℕ} {k : ℕ} {b : Bytes} (n : ℕ) (hk : k < ws.length)
    (h : b.length = ws.sum) :
    pack ws ((unpack ws b).set k n) = setField b (ws.take k).sum (ws.getD k 0) n := by
  induction ws generalizing k b with
  | nil => cases hk
  | cons w ws ih =>
    rw [List.sum_cons] at h
    have hdrop : (b.drop w).length = ws.sum := by
      rw [List.length_drop]
      omega
    cases k with
    | zero =>
      rw [unpack, List.set_cons_zero, pack, pack_unpack hdrop, setField, List.take_zero,
        List.sum_nil, List.take_zero, List.nil_append, List.getD_cons_zero, Nat.zero_add]
    | succ k =>
      have htake : (b.take w).length = w := by
        rw [List.length_take]
        omega
      have hfirst : toLE w (ofLE (b.take w)) = b.take w :=
        (congrArg (toLE · _) htake.symm).trans (toLE_ofLE _)
      rw [unpack, List.set_cons_succ, pack, hfirst, ih (Nat.lt_of_succ_lt_succ hk) hdrop,
        List.take_succ_cons, List.sum_cons, List.getD_cons_succ, setField, setField, List.take_add,
        List.drop_drop]
      simp only [List.append_assoc, Nat.add_assoc]

/-- A struct whose member at `offset` is the checksum of the rest of it does not keep this when it is
tampered with. -/
theorem selfCheck_of_tampered {crc : Bytes → ℕ} (hcrc : ∀ a a', Tampered a a' → crc a ≠ crc a')
    {b b' : Bytes} (offset width : ℕ) (h : Tampered b b')
    (hb : field b offset width = crc (setField b offset width 0)) :
    field b' offset width ≠ crc (setField b' offset width 0) := by
  intro hb'
  rcases h.take_drop offset with ⟨hbefore, hrest⟩ | ⟨hbefore, hrest⟩
  · -- Tampered with before the member.
    have hfield : field b' offset width = field b offset width := by
      rw [field, field, hrest]
    have hafter : b'.drop (offset + width) = b.drop (offset + width) := by
      rw [← List.drop_drop, ← List.drop_drop, hrest]
    refine hcrc _ _ ?_ (hb.symm.trans (hfield.symm.trans hb'))
    rw [setField, setField, hafter, List.append_assoc, List.append_assoc]
    exact hbefore.append_right _
  · rcases hrest.take_drop width with ⟨hmember, hafter⟩ | ⟨hmember, hafter⟩
    · -- Tampered with inside the member.
      have hset : setField b' offset width 0 = setField b offset width 0 := by
        rw [List.drop_drop, List.drop_drop] at hafter
        rw [setField, setField, hbefore, hafter]
      rw [hset, ← hb] at hb'
      exact hmember.ne (eq_of_ofLE_eq hmember.length_eq.symm hb'.symm)
    · -- Tampered with behind the member.
      have hfield : field b' offset width = field b offset width := by
        rw [field, field, hmember]
      refine hcrc _ _ ?_ (hb.symm.trans (hfield.symm.trans hb'))
      rw [List.drop_drop, List.drop_drop] at hafter
      rw [setField, setField, hbefore]
      exact hafter.append_left _

end ByteLayout
