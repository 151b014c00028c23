import Mathlib.Tactic

/-! Vectors of entries: the first one with a property, and totals over those of one class. -/
namespace Entries

variable {α κ : Type*} {p : α → Bool} {a : α} {l l' : List α}

/-- Erasing or changing the first entry with a property acts at one place of the vector. -/
theorem split_first (h : l.find? p = some a) :
    ∃ before after, l = before ++ a :: after ∧ p a = true ∧
    l.eraseP p = before ++ after ∧ ∀ g, l.modify (l.findIdx p) g = before ++ g a :: after := by
  obtain ⟨ha, before, after, rfl, hbefore⟩ := List.find?_eq_some_iff_append.mp h
  have hnot : ∀ b ∈ before, ¬ p b := by simpa using hbefore
  refine ⟨before, after, rfl, ha, ?_, ?_⟩
  · rw [List.eraseP_append_right _ hnot, List.eraseP_cons_of_pos ha]
  · intro g
    clear h
    induction before with
    | nil => simp [List.findIdx_cons, ha]
    | cons b before ih =>
      have hb : p b = false := by simpa using hnot b List.mem_cons_self
      have hrest : ∀ x ∈ before, ¬ p x := fun x hx => hnot x (List.mem_cons_of_mem b hx)
      simp [List.findIdx_cons, hb, ih (by simpa using hrest) hrest]

/-- An entry of an extended vector was there before, or is the new one. -/
theorem getElem?_concat {b : α} {n : ℕ} (h : (l ++ [a])[n]? = some b) :
    l[n]? = some b ∨ n = l.length ∧ b = a := by
  rcases lt_trichotomy n l.length with hn | rfl | hn
  · rw [List.getElem?_append_left hn] at h
    exact .inl h
  · rw [List.getElem?_concat_length] at h
    exact .inr ⟨rfl, (Option.some.inj h).symm⟩
  · rw [List.getElem?_eq_none (by simp; omega)] at h
    cases h

theorem getElem?_concat_iff {b : α} {n : ℕ} :
    (l ++ [a])[n]? = some b ↔ l[n]? = some b ∨ n = l.length ∧ b = a := by
  refine ⟨getElem?_concat, ?_⟩
  rintro (h | ⟨rfl, rfl⟩)
  · rw [List.getElem?_append_left (List.getElem?_eq_some_iff.mp h).1, h]
  · exact List.getElem?_concat_length

/-- Where a new entry stands in the vector, and where the others do. -/
theorem getElem?_concat_of_ne {b : α} {n : ℕ} (hne : b ≠ a) :
    (l ++ [a])[n]? = some b ↔ l[n]? = some b := by
  rw [getElem?_concat_iff, or_iff_left fun h => hne h.2]

theorem getElem?_concat_of_notMem {n : ℕ} (ha : a ∉ l) :
    (l ++ [a])[n]? = some a ↔ n = l.length := by
  rw [getElem?_concat_iff, or_iff_right fun h => ha (List.mem_of_getElem? h), and_iff_left rfl]

variable [DecidableEq κ] {c : α → κ} {f : α → ℕ} {k : κ}

/-- The total of a measure over the entries of one class. -/
def total (c : α → κ) (f : α → ℕ) (k : κ) (l : List α) : ℕ := ((l.filter (c · = k)).map f).sum

@[simp] theorem total_nil : total c f k [] = 0 := rfl

theorem total_cons : total c f k (a :: l) = (if c a = k then f a else 0) + total c f k l := by
  by_cases h : c a = k <;> simp [total, h]

theorem total_append : total c f k (l ++ l') = total c f k l + total c f k l' := by
  simp [total]

theorem total_mono {g : α → ℕ} (h : ∀ a ∈ l, f a ≤ g a) : total c f k l ≤ total c g k l := by
  induction l with
  | nil => simp
  | cons a l ih =>
    rw [total_cons, total_cons]
    have := ih fun b hb => h b (List.mem_cons_of_mem a hb)
    have := h a List.mem_cons_self
    split <;> omega

/-- When the totals of two measures differ, some entry accounts for it. -/
theorem exists_lt_of_total_lt {g : α → ℕ} (h : total c f k l < total c g k l) :
    ∃ a ∈ l, c a = k ∧ f a < g a := by
  by_contra hnone
  push Not at hnone
  refine absurd h (not_lt.mpr ?_)
  induction l with
  | nil => simp
  | cons a l ih =>
    rw [total_cons, total_cons]
    have hrest : total c g k l ≤ total c f k l := by
      by_contra hlt
      exact hlt (ih (by omega) fun b hb => hnone b (List.mem_cons_of_mem a hb))
    have := hnone a List.mem_cons_self
    split
    · have := this ‹_›
      omega
    · omega

end Entries
