import Mathlib.Data.List.Infix
import Mathlib.Tactic

/-! Pieces of a list: which part of a stream a segment carries. -/
namespace Piece

variable {α : Type*} {s t p : List α} {k i : ℕ}

/-- The list `p` stands in the stream `s` from index `k` on. -/
def At (s : List α) (k : ℕ) (p : List α) : Prop := p <+: s.drop k

theorem At.mono (h : At s k p) (hst : s <+: t) : At t k p :=
  h.trans (hst.drop k)

theorem At.drop (h : At s k p) (i : ℕ) : At s (k + i) (p.drop i) := by
  rw [At, ← List.drop_drop]
  exact List.IsPrefix.drop h i

theorem At.length_le (h : At s k p) (hp : p ≠ []) : k + p.length ≤ s.length := by
  have hl := List.IsPrefix.length_le h
  have hpos := List.length_pos_of_ne_nil hp
  rw [List.length_drop] at hl
  omega

/-- Appending the piece that starts where a prefix ends gives the longer prefix. -/
theorem At.take_append (h : At s k p) : s.take k ++ p = s.take (k + p.length) := by
  rw [List.take_add, ← List.prefix_iff_eq_take.mp h]

theorem at_take_drop (s : List α) (k n : ℕ) : At s k ((s.drop k).take n) :=
  List.take_prefix n _

theorem At.getElem? (h : At s k p) (hi : i < p.length) : s[k + i]? = p[i]? := by
  obtain ⟨r, hr⟩ := h
  rw [← List.getElem?_drop, ← hr, List.getElem?_append_left hi]

/-! ### Writing pieces into a buffer -/

/-- Overwrite the part of `full` that starts at `k`, or `none` where it would not fit. -/
def put (full : List α) (k : ℕ) (p : List α) : Option (List α) :=
  if k + p.length ≤ full.length then some (full.take k ++ p ++ full.drop (k + p.length)) else none

def overlay (full : List α) (ps : List (ℕ × List α)) : Option (List α) :=
  ps.foldlM (fun full p => put full p.1 p.2) full

/-- The piece `p` has the position `i` inside it. -/
def Covers (p : ℕ × List α) (i : ℕ) : Prop := p.1 ≤ i ∧ i < p.1 + p.2.length

instance (p : ℕ × List α) (i : ℕ) : Decidable (Covers p i) :=
  inferInstanceAs (Decidable (_ ∧ _))

/-- Two pieces give the same value to every position they share. -/
def Agree (p q : ℕ × List α) : Prop :=
  ∀ i, Covers p i → Covers q i → p.2[i - p.1]? = q.2[i - q.1]?

theorem Agree.refl (p : ℕ × List α) : Agree p p := fun _ _ _ => rfl

theorem Agree.symm {p q : ℕ × List α} (h : Agree p q) : Agree q p :=
  fun i hq hp => (h i hp hq).symm

theorem At.agree {p q : ℕ × List α} (hp : At s p.1 p.2) (hq : At s q.1 q.2) : Agree p q := by
  intro i ⟨hpi, hpl⟩ ⟨hqi, hql⟩
  rw [← hp.getElem? (by omega : i - p.1 < p.2.length), ← hq.getElem? (by omega : i - q.1 < _)]
  congr 1
  omega

variable {full r : List α} {q : ℕ × List α} {ps : List (ℕ × List α)}

theorem put_eq_some (h : k + p.length ≤ full.length) :
    ∃ r, put full k p = some r ∧ r.length = full.length ∧
      ∀ i, r[i]? = if Covers (k, p) i then p[i - k]? else full[i]? := by
  refine ⟨_, if_pos h, by simp; omega, fun i => ?_⟩
  by_cases hi : k ≤ i ∧ i < k + p.length
  · rw [if_pos (show Covers (k, p) i from hi), List.append_assoc,
      List.getElem?_append_right (by simp; omega), List.getElem?_append_left (by simp; omega)]
    congr 1
    simp
    omega
  · rw [if_neg (show ¬ Covers (k, p) i from hi)]
    by_cases hk : i < k
    · rw [List.append_assoc, List.getElem?_append_left (by simp; omega),
        List.getElem?_take_of_lt hk]
    · have hstop : k + p.length ≤ i := by omega
      have htake : (full.take k ++ p).length = k + p.length := by simp; omega
      rw [List.getElem?_append_right (by omega), List.getElem?_drop, htake]
      congr 1
      omega

/-- Pieces that fit are all written: a position holds what the last piece over it says. -/
theorem overlay_eq_some (h : ∀ p ∈ ps, p.1 + p.2.length ≤ full.length) :
    ∃ r, overlay full ps = some r ∧ r.length = full.length ∧ ∀ i,
      (∃ p ∈ ps, Covers p i ∧ r[i]? = p.2[i - p.1]?) ∨
      (∀ p ∈ ps, ¬ Covers p i) ∧ r[i]? = full[i]? := by
  induction ps generalizing full with
  | nil => exact ⟨full, rfl, rfl, fun i => .inr ⟨by simp, rfl⟩⟩
  | cons p rest ih =>
    obtain ⟨mid, hmid, hlen, hget⟩ := put_eq_some (h p List.mem_cons_self)
    have hfits : ∀ q ∈ rest, q.1 + q.2.length ≤ mid.length := by
      intro q hq
      rw [hlen]
      exact h q (List.mem_cons_of_mem _ hq)
    obtain ⟨r, hr, hrlen, hrget⟩ := ih hfits
    refine ⟨r, ?_, hrlen.trans hlen, fun i => ?_⟩
    · simp only [overlay, List.foldlM_cons, hmid, Option.bind_eq_bind, Option.bind_some]
      exact hr
    · rcases hrget i with ⟨q, hq, hqi⟩ | ⟨hnone, heq⟩
      · exact .inl ⟨q, List.mem_cons_of_mem _ hq, hqi⟩
      · rw [heq, hget i]
        by_cases hp : Covers p i
        · exact .inl ⟨p, List.mem_cons_self, hp, if_pos hp⟩
        · exact .inr ⟨by simpa [hp] using hnone, if_neg hp⟩

/-- Where the pieces agree, each of them stands in the result, whatever the order. -/
theorem overlay_at (h : ∀ p ∈ ps, p.1 + p.2.length ≤ full.length)
    (hagree : ∀ p ∈ ps, ∀ q ∈ ps, Agree p q) :
    ∃ r, overlay full ps = some r ∧ r.length = full.length ∧ ∀ p ∈ ps, At r p.1 p.2 := by
  obtain ⟨r, hr, hlen, hget⟩ := overlay_eq_some h
  refine ⟨r, hr, hlen, fun p hp => ?_⟩
  refine List.prefix_iff_getElem?.mpr fun i hi => ?_
  have hcov : Covers p (p.1 + i) := ⟨by omega, by omega⟩
  rw [List.getElem?_drop]
  rcases hget (p.1 + i) with ⟨q, hq, hqi, heq⟩ | ⟨hnone, -⟩
  · rw [heq, ← hagree p hp q hq _ hcov hqi]
    simp [hi]
  · exact absurd hcov (hnone p hp)

/-- Two lists of one length are equal once pieces that stand in both cover it. -/
theorem eq_of_covered (hs : ∀ p ∈ ps, At s p.1 p.2) (ht : ∀ p ∈ ps, At t p.1 p.2)
    (hlen : s.length = t.length) (hcov : ∀ i < s.length, ∃ p ∈ ps, Covers p i) : s = t := by
  apply List.ext_getElem? fun i => ?_
  by_cases hi : i < s.length
  · obtain ⟨p, hp, hpi, hpl⟩ := hcov i hi
    have hin : i - p.1 < p.2.length := by omega
    have heq : i = p.1 + (i - p.1) := by omega
    rw [heq, (hs p hp).getElem? hin, (ht p hp).getElem? hin]
  · rw [List.getElem?_eq_none (by omega), List.getElem?_eq_none (by omega)]

end Piece
