import Mathlib.Tactic

/-! Receive windows: marks for the newest numbers of a stream, next to the numbers taken from it. -/
namespace Window

/-- Mark `i` stands for the number `i` places below the newest one. -/
structure Records (width : ℕ) (newest : ℤ) (taken : Set ℤ) (marks : ℕ → Bool) : Prop where
  le_newest : ∀ t ∈ taken, t ≤ newest
  mark_iff : ∀ i < width, marks i = true ↔ newest - i ∈ taken

/-- Not taken before, and not below the window. -/
def Fresh (width : ℕ) (newest : ℤ) (taken : Set ℤ) (t : ℤ) : Prop :=
  t ∉ taken ∧ newest - width < t

variable {width : ℕ} {newest t : ℤ} {taken : Set ℤ} {marks marks' : ℕ → Bool} {d : ℕ}

theorem Records.fresh_of_lt (h : Records width newest taken marks) (ht : newest < t) :
    Fresh width newest taken t := by
  constructor
  · intro hmem
    have := h.le_newest t hmem
    omega
  · omega

/-- A number that is not the newest is looked up among the marks. -/
theorem Records.fresh_behind (h : Records width newest taken marks) (ht : t = newest - d) :
    Fresh width newest taken t ↔ d < width ∧ marks d = false := by
  subst ht
  constructor
  · rintro ⟨hmem, hlow⟩
    have hd : d < width := by omega
    refine ⟨hd, ?_⟩
    by_contra hmark
    exact hmem ((h.mark_iff d hd).mp (by simpa using hmark))
  · rintro ⟨hd, hmark⟩
    refine ⟨?_, by omega⟩
    intro hmem
    have := (h.mark_iff d hd).mpr hmem
    simp_all

/-- The window moves up to a number above it: the marks shift, and the first one is set. -/
theorem Records.advance (h : Records width newest taken marks) (ht : t = newest + d) (hd : 0 < d)
    (hmarks : ∀ i < width, marks' i = true ↔ i = 0 ∨ d ≤ i ∧ marks (i - d) = true) :
    Records width t (insert t taken) marks' := by
  subst ht
  constructor
  · rintro u (rfl | hu)
    · exact le_rfl
    · have := h.le_newest u hu
      omega
  · intro i hi
    rw [hmarks i hi, Set.mem_insert_iff]
    constructor
    · rintro (rfl | ⟨hdi, hmark⟩)
      · left
        simp
      · right
        have hmem := (h.mark_iff (i - d) (by omega)).mp hmark
        rwa [show newest + (d : ℤ) - i = newest - ((i - d : ℕ) : ℤ) by omega]
    · rintro (heq | hmem)
      · left
        omega
      · right
        have hle := h.le_newest _ hmem
        have hdi : d ≤ i := by omega
        refine ⟨hdi, (h.mark_iff (i - d) (by omega)).mpr ?_⟩
        rwa [show newest + (d : ℤ) - i = newest - ((i - d : ℕ) : ℤ) by omega] at hmem

/-- A number inside the window is marked. -/
theorem Records.fill (h : Records width newest taken marks) (ht : t = newest - d)
    (hmarks : ∀ i < width, marks' i = true ↔ i = d ∨ marks i = true) :
    Records width newest (insert t taken) marks' := by
  subst ht
  constructor
  · rintro u (rfl | hu)
    · omega
    · exact h.le_newest u hu
  · intro i hi
    rw [hmarks i hi, Set.mem_insert_iff, h.mark_iff i hi]
    constructor
    · rintro (rfl | hmem)
      · exact .inl rfl
      · exact .inr hmem
    · rintro (heq | hmem)
      · left
        omega
      · exact .inr hmem

end Window
