import Mathlib.Tactic

/-! Lists cut into pieces of a fixed length, the last one possibly shorter. -/
namespace Chunks

variable {α β : Type*} {n : ℕ} {l : List α}

/-- `chunks(n)`, for a positive `n`. -/
def chunks (n : ℕ) : List α → List (List α)
  | [] => []
  | a :: rest => (a :: rest.take (n - 1)) :: chunks n (rest.drop (n - 1))
termination_by l => l.length
decreasing_by simp

@[simp] theorem chunks_nil : chunks n ([] : List α) = [] := by rw [chunks]

theorem flatten_chunks (n : ℕ) (l : List α) : (chunks n l).flatten = l := by
  fun_induction chunks n l with
  | case1 => rfl
  | case2 a rest ih => rw [List.flatten_cons, ih, List.cons_append, List.take_append_drop]

theorem ne_nil_of_mem_chunks {c : List α} (h : c ∈ chunks n l) : c ≠ [] := by
  fun_induction chunks n l with
  | case1 => simp at h
  | case2 a rest ih =>
    rcases List.mem_cons.mp h with rfl | h
    · simp
    · exact ih h

theorem length_le_of_mem_chunks {c : List α} (hn : 0 < n) (h : c ∈ chunks n l) : c.length ≤ n := by
  fun_induction chunks n l with
  | case1 => simp at h
  | case2 a rest ih =>
    rcases List.mem_cons.mp h with rfl | h
    · simp
      omega
    · exact ih h

/-- A short list that is not empty is its own only piece. -/
theorem chunks_of_length_le (hne : l ≠ []) (hlen : l.length ≤ n) : chunks n l = [l] := by
  cases l with
  | nil => exact absurd rfl hne
  | cons a rest =>
    have hrest : rest.length ≤ n - 1 := by
      simp at hlen
      omega
    rw [chunks, List.take_of_length_le hrest, List.drop_of_length_le hrest, chunks_nil]

end Chunks
