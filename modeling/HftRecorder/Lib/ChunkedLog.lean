import Mathlib.Data.List.Forall2

/-!
# Logs in chunks

A log that only grows at its end is kept as a list of entries, each of which describes a chunk of it,
and the part that no entry describes yet. `Chunked` says so. An addition goes to the open part, and
the open part becomes the chunk of a new entry; neither loses or repeats anything.
-/

namespace ChunkedLog

variable {ε α : Type} {describes : ε → List α → Prop} {entries : List ε} {pending log : List α}

/-- The entries describe the chunks of a log, in order, and `pending` is the rest of it. -/
def Chunked (describes : ε → List α → Prop) (entries : List ε) (pending log : List α) : Prop :=
  ∃ chunks, List.Forall₂ describes entries chunks ∧ log = chunks.flatten ++ pending

theorem Chunked.nil : Chunked describes [] [] [] := ⟨[], .nil, rfl⟩

/-- An addition goes to the open part. -/
theorem Chunked.append (h : Chunked describes entries pending log) (more : List α) :
    Chunked describes entries (pending ++ more) (log ++ more) := by
  obtain ⟨chunks, hchunks, rfl⟩ := h
  exact ⟨chunks, hchunks, List.append_assoc ..⟩

/-- The open part becomes a chunk. -/
theorem Chunked.close (h : Chunked describes entries pending log) {entry : ε}
    (hentry : describes entry pending) : Chunked describes (entries ++ [entry]) [] log := by
  obtain ⟨chunks, hchunks, rfl⟩ := h
  exact ⟨chunks ++ [pending], List.rel_append hchunks (.cons hentry .nil), by simp⟩

end ChunkedLog
