import Mathlib.Data.List.Sort
import Mathlib.Tactic

/-! Stepping through a collection in the order of a key, from the least element above a bound to the
next. -/
namespace Ascent

variable {α β : Type*} [LinearOrder β] {key : α → β} {s : α → Prop} {b : β} {a : α}
  {l rest : List α}

/-- `Iterator::min_by` on the keys: the first of the least elements. -/
def minBy (key : α → β) : List α → Option α
  | [] => none
  | a :: rest => some (rest.foldl (fun best next => if key next < key best then next else best) a)

theorem minBy_eq_none : minBy key l = none ↔ l = [] := by
  cases l <;> simp [minBy]

theorem minBy_spec (h : minBy key l = some a) : a ∈ l ∧ ∀ c ∈ l, key a ≤ key c := by
  have hfold : ∀ (rest : List α) (x : α),
      let least := rest.foldl (fun best next => if key next < key best then next else best) x
      (least = x ∨ least ∈ rest) ∧ key least ≤ key x ∧ ∀ c ∈ rest, key least ≤ key c := by
    intro rest
    induction rest with
    | nil => simp
    | cons y rest ih =>
      intro x
      obtain ⟨hmem, hle, hall⟩ := ih (if key y < key x then y else x)
      have hpick : key (if key y < key x then y else x) ≤ key x ∧
          key (if key y < key x then y else x) ≤ key y := by
        split
        · next hlt => exact ⟨hlt.le, le_rfl⟩
        · next hlt => exact ⟨le_rfl, not_lt.mp hlt⟩
      refine ⟨?_, hle.trans hpick.1, ?_⟩
      · rcases hmem with heq | hmem
        · rw [List.foldl_cons, heq]
          split
          · exact .inr List.mem_cons_self
          · exact .inl rfl
        · exact .inr (List.mem_cons_of_mem y hmem)
      · intro c hc
        rcases List.mem_cons.mp hc with rfl | hc
        · exact hle.trans hpick.2
        · exact hall c hc
  cases l with
  | nil => cases h
  | cons x rest =>
    obtain ⟨hmem, hle, hall⟩ := hfold rest x
    cases h
    refine ⟨List.mem_cons.mpr hmem, ?_⟩
    intro c hc
    rcases List.mem_cons.mp hc with rfl | hc
    · exact hle
    · exact hall c hc

/-- The elements above a bound, in the order of their keys. -/
structure Above (key : α → β) (s : α → Prop) (b : β) (l : List α) : Prop where
  sorted : l.Pairwise fun a c => key a < key c
  mem_iff : ∀ a, a ∈ l ↔ s a ∧ b < key a

theorem Above.nil (h : Above key s b []) : ∀ a, s a → ¬ b < key a := by
  intro a ha hlt
  have := (h.mem_iff a).mpr ⟨ha, hlt⟩
  simp at this

/-- The first of them is the least one above the bound. -/
theorem Above.head (h : Above key s b (a :: rest)) :
    s a ∧ b < key a ∧ ∀ c, s c → b < key c → key a ≤ key c := by
  obtain ⟨ha, hlt⟩ := (h.mem_iff a).mp List.mem_cons_self
  refine ⟨ha, hlt, ?_⟩
  intro c hc hbc
  rcases List.mem_cons.mp ((h.mem_iff c).mpr ⟨hc, hbc⟩) with rfl | hmem
  · exact le_rfl
  · exact (List.rel_of_pairwise_cons h.sorted hmem).le

/-- The others are those above the first. -/
theorem Above.tail (h : Above key s b (a :: rest)) : Above key s (key a) rest := by
  obtain ⟨hhead, hrest⟩ := List.pairwise_cons.mp h.sorted
  obtain ⟨-, hlt, -⟩ := h.head
  refine ⟨hrest, ?_⟩
  intro c
  constructor
  · intro hc
    exact ⟨((h.mem_iff c).mp (List.mem_cons_of_mem a hc)).1, hhead c hc⟩
  · rintro ⟨hc, hac⟩
    rcases List.mem_cons.mp ((h.mem_iff c).mpr ⟨hc, hlt.trans hac⟩) with rfl | hmem
    · exact absurd hac (lt_irrefl _)
    · exact hmem

/-- A finite collection with distinct keys can be listed so. -/
theorem exists_above (elements : List α) (hs : ∀ a, a ∈ elements ↔ s a)
    (hinj : ∀ a c, s a → s c → key a = key c → a = c) (b : β) : ∃ l, Above key s b l := by
  classical
  refine ⟨(elements.dedup.filter fun a => b < key a).mergeSort fun a c => key a ≤ key c, ?_, ?_⟩
  · have hle := @List.pairwise_mergeSort _ (fun a c => decide (key a ≤ key c))
      (fun x y z hxy hyz => by simp at *; exact hxy.trans hyz)
      (fun x y => by simpa using le_total (key x) (key y))
      (elements.dedup.filter fun a => b < key a)
    have hnodup : ((elements.dedup.filter fun a => b < key a).mergeSort
        fun a c => key a ≤ key c).Nodup :=
      (List.mergeSort_perm _ _).nodup_iff.mpr (elements.nodup_dedup.filter _)
    refine (hle.and hnodup).imp_of_mem ?_
    rintro x y hx hy ⟨hxy, hne⟩
    simp only [List.mem_mergeSort, List.mem_filter, List.mem_dedup, hs] at hx hy
    exact lt_of_le_of_ne (by simpa using hxy) fun heq => hne (hinj x y hx.1 hy.1 heq)
  · intro a
    simp [hs]

end Ascent
