import Mathlib.Data.UInt
import Mathlib.Tactic.Tauto

/-!
# Masks

Sixteen-bit masks as sets of bits. The masks themselves are combined with the machine's operations;
`has` reads a bit, so that a statement about masks becomes one about each bit of them.
-/

namespace Mask

def has (m : UInt16) (i : ℕ) : Bool := m.toBitVec.getLsbD i

variable (a b : UInt16) (i : ℕ)

@[simp]
theorem has_zero : has 0 i = false := by simp [has]

@[simp]
theorem has_and : has (a &&& b) i = (has a i && has b i) := by simp [has]

@[simp]
theorem has_or : has (a ||| b) i = (has a i || has b i) := by simp [has]

@[simp]
theorem has_xor : has (a ^^^ b) i = (has a i ^^ has b i) := by simp [has]

@[simp]
theorem has_not : has (~~~a) i = (decide (i < 16) && !has a i) := by
  simp only [has, UInt16.toBitVec_not, BitVec.getLsbD_not]

variable {a b i}

theorem lt_of_has (h : has a i = true) : i < 16 := BitVec.lt_of_getLsbD h

theorem has_and_not : has (a &&& ~~~b) i = (has a i && !has b i) := by
  rw [has_and, has_not]
  cases ha : has a i with
  | false => rfl
  | true => simp [lt_of_has ha]

theorem has_shiftLeft {k : ℕ} (hk : k < 16) (i : ℕ) :
    has (1 <<< UInt16.ofNat k) i = decide (i = k) := by
  have hmod : k % 16 = k := Nat.mod_eq_of_lt hk
  rw [has, Bool.eq_iff_iff]
  simp [UInt16.toBitVec_shiftLeft, BitVec.getLsbD_shiftLeft, BitVec.getLsbD_one, hmod]
  omega

theorem eq_of_has (h : ∀ i, has a i = has b i) : a = b := by
  rw [UInt16.eq_iff_toBitVec_eq]
  exact BitVec.eq_of_getLsbD_eq fun i _ => h i

theorem eq_zero_iff : a = 0 ↔ ∀ i, has a i = false := by
  refine ⟨fun h i => by rw [h, has_zero], fun h => ?_⟩
  exact eq_of_has fun i => (h i).trans (has_zero i).symm

/-- The bits of one mask are bits of another. -/
def Within (a b : UInt16) : Prop := a &&& ~~~b = 0

theorem within_iff : Within a b ↔ ∀ i, has a i = true → has b i = true := by
  unfold Within
  rw [eq_zero_iff]
  refine forall_congr' fun i => ?_
  rw [has_and_not]
  cases has a i <;> simp

theorem Within.refl (a : UInt16) : Within a a := within_iff.mpr fun _ => id

theorem and_eq_zero_iff : a &&& b = 0 ↔ ∀ i, has a i = true → has b i = false := by
  rw [eq_zero_iff]
  refine forall_congr' fun i => ?_
  rw [has_and]
  cases has a i <;> simp

end Mask
