import ToyTcpip.Lib.Piece

/-! Coverage: how far sorted pieces reach without a gap, and how often a list brings all of a
set. -/
namespace Piece

variable {α : Type*} {ps : List (ℕ × List α)} {c r n : ℕ}

/-- How far pieces, taken in turn, reach without a gap. -/
def reach : List (ℕ × List α) → ℕ → Option ℕ
  | [], c => some c
  | p :: ps, c => if p.1 ≤ c then reach ps (max c (p.1 + p.2.length)) else none

theorem covered_of_reach (h : reach ps c = some r) : ∀ i, c ≤ i → i < r → ∃ p ∈ ps, Covers p i := by
  induction ps generalizing c with
  | nil =>
    obtain rfl := Option.some.inj h
    intro i hle hlt
    omega
  | cons p ps ih =>
    rw [reach] at h
    split at h
    · rename_i hp
      intro i hle hlt
      by_cases hi : i < p.1 + p.2.length
      · exact ⟨p, List.mem_cons_self, by omega, hi⟩
      · obtain ⟨q, hq, hcov⟩ := ih h i (by omega) hlt
        exact ⟨q, List.mem_cons_of_mem p hq, hcov⟩
    · cases h

/-- Sorted pieces that leave no position out reach to the end. -/
theorem reach_of_covered (hsorted : ps.Pairwise fun p q => p.1 ≤ q.1) (hin : ∀ p ∈ ps, p.1 < n)
    (hcov : ∀ i, c ≤ i → i < n → ∃ p ∈ ps, Covers p i) : ∃ r, reach ps c = some r ∧ n ≤ r := by
  induction ps generalizing c with
  | nil =>
    refine ⟨c, rfl, ?_⟩
    by_contra hlt
    obtain ⟨p, hp, -⟩ := hcov c le_rfl (not_le.mp hlt)
    simp at hp
  | cons p ps ih =>
    obtain ⟨hfirst, hrest⟩ := List.pairwise_cons.mp hsorted
    have hp : p.1 ≤ c := by
      by_contra hgap
      have hlt := hin p List.mem_cons_self
      obtain ⟨q, hq, hqc, -⟩ := hcov c le_rfl (by omega)
      rcases List.mem_cons.mp hq with rfl | hq
      · omega
      · have := hfirst q hq
        omega
    rw [reach, if_pos hp]
    refine ih hrest (fun q hq => hin q (List.mem_cons_of_mem p hq)) fun i hle hlt => ?_
    obtain ⟨q, hq, hcov'⟩ := hcov i (by omega) hlt
    rcases List.mem_cons.mp hq with rfl | hq
    · have := hcov'.2
      omega
    · exact ⟨q, hq, hcov'⟩

/-- Where every piece fits, it does not matter that one that did not would be left out. -/
theorem foldl_put_of_overlay {full s : List α} (h : overlay full ps = some s) :
    ps.foldl (fun full p => (put full p.1 p.2).getD full) full = s := by
  induction ps generalizing full with
  | nil => exact Option.some.inj h
  | cons p ps ih =>
    obtain ⟨mid, hmid, hrest⟩ := Option.bind_eq_some_iff.mp h
    dsimp only at hmid
    rw [List.foldl_cons, hmid, Option.getD_some]
    exact ih hrest

end Piece

namespace Rounds

variable {α : Type*} [DecidableEq α] {all seen seen' l : List α} {n : ℕ}

/-- How often a list brings all of a set, each time anew, when some were seen before. -/
def rounds (all : List α) : List α → List α → ℕ
  | _, [] => 0
  | seen, a :: rest =>
    if all ⊆ a :: seen then rounds all [] rest + 1 else rounds all (a :: seen) rest

/-- To have seen more brings a round forward, and at most one. -/
theorem rounds_mono (all l : List α) : ∀ seen seen', seen ⊆ seen' →
    rounds all seen l ≤ rounds all seen' l ∧ rounds all seen' l ≤ rounds all seen l + 1 := by
  induction l with
  | nil => simp [rounds]
  | cons a rest ih =>
    intro seen seen' hsub
    have hcons : a :: seen ⊆ a :: seen' := List.cons_subset_cons a hsub
    by_cases hseen : all ⊆ a :: seen
    · simp [rounds, hseen, List.Subset.trans hseen hcons]
    · by_cases hseen' : all ⊆ a :: seen'
      · have := ih [] (a :: seen) (List.nil_subset _)
        simp only [rounds, if_neg hseen, if_pos hseen']
        omega
      · simp only [rounds, if_neg hseen, if_neg hseen']
        exact ih _ _ hcons

theorem rounds_append_le (all first rest : List α) (seen : List α) :
    rounds all [] rest ≤ rounds all seen (first ++ rest) := by
  induction first generalizing seen with
  | nil => exact (rounds_mono all rest [] seen (List.nil_subset _)).1
  | cons a first ih =>
    rw [List.cons_append, rounds]
    split
    · exact Nat.le_succ_of_le (ih [])
    · exact ih (a :: seen)

/-- There is one round more exactly when the list splits after it. -/
theorem succ_le_rounds_iff (hseen : ¬ all ⊆ seen) : n + 1 ≤ rounds all seen l ↔
    ∃ first rest, l = first ++ rest ∧ all ⊆ seen ++ first ∧ n ≤ rounds all [] rest := by
  induction l generalizing seen with
  | nil =>
    constructor
    · intro h
      simp [rounds] at h
    · rintro ⟨first, rest, heq, hall, -⟩
      obtain ⟨rfl, -⟩ := List.append_eq_nil_iff.mp heq.symm
      exact absurd (by simpa using hall) hseen
  | cons a l ih =>
    have hmove : ∀ first : List α, seen ++ a :: first ⊆ a :: seen ++ first := by
      intro first x hx
      simp only [List.mem_append, List.mem_cons] at hx ⊢
      tauto
    rw [rounds]
    by_cases hround : all ⊆ a :: seen
    · rw [if_pos hround]
      constructor
      · intro h
        exact ⟨[a], l, rfl, fun x hx => by simpa [or_comm] using hround hx, by omega⟩
      · rintro ⟨first, rest, heq, hall, hn⟩
        cases first with
        | nil => exact absurd (by simpa using hall) hseen
        | cons b first =>
          rw [List.cons_append] at heq
          obtain ⟨rfl, rfl⟩ := List.cons.inj heq
          have := rounds_append_le all first rest []
          omega
    · rw [if_neg hround, ih hround]
      constructor
      · rintro ⟨first, rest, rfl, hall, hn⟩
        refine ⟨a :: first, rest, rfl, fun x hx => ?_, hn⟩
        have := hall hx
        simp only [List.mem_append, List.mem_cons] at this ⊢
        tauto
      · rintro ⟨first, rest, heq, hall, hn⟩
        cases first with
        | nil => exact absurd (by simpa using hall) hseen
        | cons b first =>
          rw [List.cons_append] at heq
          obtain ⟨rfl, rfl⟩ := List.cons.inj heq
          exact ⟨first, rest, rfl, List.Subset.trans hall (hmove first), hn⟩

/-- A list that brings everything brings it once exactly when no two parts of it both bring
everything. -/
theorem rounds_eq_one_iff (hall : all ≠ []) (hl : all ⊆ l) : rounds all [] l = 1 ↔
    ¬ ∃ first rest, l = first ++ rest ∧ all ⊆ first ∧ all ⊆ rest := by
  have hnil : ¬ all ⊆ [] := fun h => hall (List.subset_nil.mp h)
  have hone : ∀ l, 1 ≤ rounds all [] l ↔ all ⊆ l := by
    intro l
    rw [succ_le_rounds_iff hnil]
    constructor
    · rintro ⟨first, rest, rfl, hfirst, -⟩
      exact fun x hx => List.mem_append_left rest (hfirst hx)
    · intro hsub
      exact ⟨l, [], by simp, hsub, Nat.zero_le _⟩
  have htwo : 2 ≤ rounds all [] l ↔ ∃ first rest, l = first ++ rest ∧ all ⊆ first ∧ all ⊆ rest := by
    rw [succ_le_rounds_iff hnil]
    simp only [hone, List.nil_append]
  have := (hone l).mpr hl
  rw [← htwo]
  omega

end Rounds
