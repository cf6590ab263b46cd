import Mathlib.Logic.Function.Basic
import Mathlib.Data.List.Basic

/-!
# Writes to a map

A list of writes over a map, in order. Of the writes to one key only the last one counts, so a list of
writes gives the same map over any two maps that agree on the keys it leaves alone
(`writes_congr`). In particular writes that have been made already do no harm if their keys are all
written again (`writes_writes`).
-/

namespace LastWrite

variable {κ ν : Type} [DecidableEq κ]

def writes (ws : List (κ × ν)) (m : κ → ν) : κ → ν :=
  ws.foldl (fun m w => Function.update m w.1 w.2) m

@[simp]
theorem writes_cons (w : κ × ν) (ws : List (κ × ν)) (m : κ → ν) :
    writes (w :: ws) m = writes ws (Function.update m w.1 w.2) := rfl

theorem writes_append (ws ws' : List (κ × ν)) (m : κ → ν) :
    writes (ws ++ ws') m = writes ws' (writes ws m) := List.foldl_append

theorem writes_congr (ws : List (κ × ν)) {m m' : κ → ν}
    (h : ∀ key, key ∉ ws.map Prod.fst → m key = m' key) : writes ws m = writes ws m' := by
  induction ws generalizing m m' with
  | nil =>
    funext key
    exact h key List.not_mem_nil
  | cons w ws ih =>
    rw [writes_cons, writes_cons]
    refine ih fun key hkey => ?_
    by_cases heq : key = w.1
    · rw [heq, Function.update_self, Function.update_self]
    · rw [Function.update_of_ne heq, Function.update_of_ne heq]
      exact h key (by simp [heq, hkey])

theorem writes_of_not_mem (ws : List (κ × ν)) (m : κ → ν) {key : κ}
    (h : key ∉ ws.map Prod.fst) : writes ws m key = m key := by
  induction ws generalizing m with
  | nil => rfl
  | cons w ws ih =>
    simp only [List.map_cons, List.mem_cons, not_or] at h
    rw [writes_cons, ih _ h.2, Function.update_of_ne h.1]

theorem writes_of_mem {ws : List (κ × ν)} (hkeys : (ws.map Prod.fst).Nodup) (m : κ → ν)
    {w : κ × ν} (hw : w ∈ ws) : writes ws m w.1 = w.2 := by
  obtain ⟨before, after, rfl⟩ := List.append_of_mem hw
  rw [List.map_append, List.map_cons, List.nodup_append] at hkeys
  rw [writes_append, writes_cons, writes_of_not_mem after _ (List.nodup_cons.mp hkeys.2.1).1,
    Function.update_self]

theorem writes_writes {before ws : List (κ × ν)}
    (h : before.map Prod.fst ⊆ ws.map Prod.fst) (m : κ → ν) :
    writes ws (writes before m) = writes ws m :=
  writes_congr ws fun _ hkey => writes_of_not_mem before m fun hmem => hkey (h hmem)

end LastWrite
