import Mathlib.Tactic.Common

/-!
# Unbounded loops with a failure exit

`for (;;)` with a body that goes round again, leaves with a result, or fails. `loop` runs such a body
at most a given number of times. A measure that goes down on every round bounds the number of rounds
(`exists_loop`), and the bound does not matter once it is large enough (`loop_of_le`).
-/

namespace Loop

/-- What one round does when it does not fail. -/
inductive Round (σ α : Type)
  | again (s : σ)
  | leave (result : α)

variable {σ α ε : Type}

/-- At most `fuel` rounds of a body, and nothing if they do not end the loop. -/
def loop (body : σ → Except ε (Round σ α)) : ℕ → σ → Option (Except ε α)
  | 0, _ => none
  | fuel + 1, s =>
    match body s with
    | .error e => some (.error e)
    | .ok (.leave result) => some (.ok result)
    | .ok (.again s) => loop body fuel s

variable {body : σ → Except ε (Round σ α)} {s : σ}

theorem loop_of_le {fuel more : ℕ} {outcome : Except ε α} (h : loop body fuel s = some outcome)
    (hle : fuel ≤ more) : loop body more s = some outcome := by
  induction fuel generalizing s more with
  | zero => cases h
  | succ fuel ih =>
    obtain ⟨more, rfl⟩ : ∃ k, more = k + 1 := ⟨more - 1, by omega⟩
    rw [loop] at h ⊢
    cases hbody : body s with
    | error e => rw [hbody] at h; exact h
    | ok round =>
      rw [hbody] at h
      cases round with
      | leave result => exact h
      | again t => exact ih h (by omega)

theorem exists_loop (body : σ → Except ε (Round σ α)) (measure : σ → ℕ)
    (hmeasure : ∀ s t, body s = .ok (.again t) → measure t < measure s) {s : σ} {fuel : ℕ}
    (hfuel : measure s < fuel) : ∃ outcome, loop body fuel s = some outcome := by
  induction fuel generalizing s with
  | zero => omega
  | succ fuel ih =>
    rw [loop]
    cases hbody : body s with
    | error e => exact ⟨_, rfl⟩
    | ok round =>
      cases round with
      | leave result => exact ⟨_, rfl⟩
      | again t => exact ih (by have := hmeasure s t hbody; omega)

end Loop
