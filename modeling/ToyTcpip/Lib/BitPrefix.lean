import Mathlib.Tactic

/-! Words that agree on their leading bits. -/
namespace BitPrefix

variable {w : ℕ} {x y : BitVec w} {k n : ℕ}

/-- The first `n` bits, counted from the most significant one, are the same. -/
def Same (n : ℕ) (x y : BitVec w) : Prop := ∀ i < n, x.getMsbD i = y.getMsbD i

/-- Clearing the last `k` bits of two words makes them equal when the others agree. -/
theorem and_allOnes_shiftLeft_eq_iff :
    x &&& (BitVec.allOnes w <<< k) = y &&& (BitVec.allOnes w <<< k) ↔ Same (w - k) x y := by
  constructor
  · intro h i hi
    have hbit := congrArg (fun z => BitVec.getLsbD z (w - 1 - i)) h
    simp only [BitVec.getLsbD_and, BitVec.getLsbD_shiftLeft, BitVec.getLsbD_allOnes] at hbit
    have h₁ : w - 1 - i < w := by omega
    have h₂ : ¬ w - 1 - i < k := by omega
    have h₃ : w - 1 - i - k < w := by omega
    simp only [h₁, h₂, h₃, decide_true, decide_false, Bool.not_false, Bool.and_true] at hbit
    simpa [BitVec.getMsbD, show i < w by omega] using hbit
  · intro h
    apply BitVec.eq_of_getLsbD_eq
    intro j hj
    simp only [BitVec.getLsbD_and, BitVec.getLsbD_shiftLeft]
    by_cases hk : j < k
    · simp [hk]
    · have hbit := h (w - 1 - j) (by omega)
      simp only [BitVec.getMsbD, show w - 1 - j < w by omega, decide_true, Bool.true_and,
        show w - 1 - (w - 1 - j) = j by omega] at hbit
      rw [hbit]

end BitPrefix
