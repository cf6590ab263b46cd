import Mathlib.Data.List.Basic

/-!
# Machines

A machine is a step function on states and actions: the state after an action, or `none` where the
action is not possible. An interleaving of several threads is a list of actions, each of them one
atomic operation of one thread together with the outcomes that the thread does not decide. `run` is
such an interleaving, and an invariant of the steps is an invariant of every interleaving.
-/

namespace Machine

variable {σ α : Type} {step : σ → α → Option σ}

/-- The state after a list of actions, if each of them is possible. -/
def run (step : σ → α → Option σ) : σ → List α → Option σ
  | s, [] => some s
  | s, a :: as =>
    match step s a with
    | none => none
    | some t => run step t as

theorem run_append (s : σ) (as bs : List α) :
    run step s (as ++ bs) = (run step s as).bind fun t => run step t bs := by
  induction as generalizing s with
  | nil => rfl
  | cons a as ih =>
    rw [List.cons_append, run, run]
    split
    · rfl
    · exact ih _

theorem run_singleton (s : σ) (a : α) : run step s [a] = step s a := by
  cases h : step s a <;> simp [run, h]

theorem run_invariant {P : σ → Prop} (hstep : ∀ s a t, step s a = some t → P s → P t)
    {s t : σ} {as : List α} (h : run step s as = some t) (hs : P s) : P t := by
  induction as generalizing s with
  | nil =>
    cases h
    exact hs
  | cons a as ih =>
    rw [run] at h
    split at h
    · cases h
    · rename_i u hu
      exact ih h (hstep s a u hu hs)

theorem run_relation {P : σ → Prop} {R : σ → σ → Prop} (hrefl : ∀ s, R s s)
    (htrans : ∀ s t u, R s t → R t u → R s u)
    (hstep : ∀ s a t, step s a = some t → P s → P t ∧ R s t)
    {s t : σ} {as : List α} (h : run step s as = some t) (hs : P s) : P t ∧ R s t := by
  induction as generalizing s with
  | nil =>
    cases h
    exact ⟨hs, hrefl _⟩
  | cons a as ih =>
    rw [run] at h
    split at h
    · cases h
    · rename_i u hu
      obtain ⟨hPu, hsu⟩ := hstep s a u hu hs
      obtain ⟨hPt, hut⟩ := ih h hPu
      exact ⟨hPt, htrans s u t hsu hut⟩

/-- A machine that one action always moves down, until it is done, gets done by that action alone. -/
theorem exists_run_replicate {P done : σ → Prop} (measure : σ → ℕ) (a : α)
    (hstep : ∀ s, P s → ¬ done s → ∃ t, step s a = some t ∧ P t ∧ measure t < measure s)
    (s : σ) (hs : P s) : ∃ n t, run step s (List.replicate n a) = some t ∧ P t ∧ done t := by
  induction hn : measure s using Nat.strongRecOn generalizing s with
  | ind m ih =>
    by_cases hdone : done s
    · exact ⟨0, s, rfl, hs, hdone⟩
    · obtain ⟨t, ht, hPt, hlt⟩ := hstep s hs hdone
      obtain ⟨n, u, hu, hPu, hdone⟩ := ih (measure t) (hn ▸ hlt) t hPt rfl
      refine ⟨n + 1, u, ?_, hPu, hdone⟩
      rw [List.replicate_succ, run, ht]
      exact hu

end Machine
