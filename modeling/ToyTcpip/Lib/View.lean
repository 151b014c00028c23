import Mathlib.Tactic
import Std.Data.TreeMap

/-! Ordered maps seen as partial functions through a projection of their values. -/
namespace View

variable {κ β γ : Type*} [Ord κ]

/-- What the table says at each key, projected. -/
def view (m : Std.TreeMap κ β) (g : β → γ) (k : κ) : Option γ := (m[k]?).map g

variable [Std.TransOrd κ] {m : Std.TreeMap κ β} {g : β → γ} {a k : κ} {v : β}

@[simp] theorem view_empty : view (∅ : Std.TreeMap κ β) g k = none := by simp [view]

theorem view_eq_none : view m g k = none ↔ k ∉ m := by simp [view]

theorem contains_eq_view : m.contains k = (view m g k).isSome := by
  rw [view, Option.isSome_map, ← Std.TreeMap.isSome_getElem?_eq_contains]

variable [Std.LawfulEqOrd κ]

theorem view_map {f : κ → β → β} (h : ∀ k v, g (f k v) = g v) : view (m.map f) g = view m g := by
  funext k
  simp [view, h, Function.comp_def]

variable [DecidableEq κ]

theorem view_insert : view (m.insert a v) g = Function.update (view m g) a (some (g v)) := by
  funext k
  by_cases h : k = a
  · simp [view, h]
  · simp [view, h, Std.TreeMap.getElem?_insert, Ne.symm h]

theorem view_erase : view (m.erase a) g = Function.update (view m g) a none := by
  funext k
  by_cases h : k = a
  · simp [view, h]
  · simp [view, h, Std.TreeMap.getElem?_erase, Ne.symm h]

/-- An entry written back with the same projection. -/
theorem view_insert_self (h : m[a]? = some v) {w : β} (hw : g w = g v) :
    view (m.insert a w) g = view m g := by
  rw [view_insert, hw]
  exact Function.update_eq_self_iff.mpr (by simp [view, h])

/-! ### Partial functions inverse to each other -/

section inverse

variable {α β : Type*} [DecidableEq α] [DecidableEq β] {f : α → Option β} {g : β → Option α}
  {a : α} {b : β}

def Inverse (f : α → Option β) (g : β → Option α) : Prop := ∀ a b, f a = some b ↔ g b = some a

theorem Inverse.insert (h : Inverse f g) (ha : f a = none) (hb : g b = none) :
    Inverse (Function.update f a (some b)) (Function.update g b (some a)) := by
  intro x y
  have hxy := h x y
  simp only [Function.update_apply]
  by_cases hx : x = a
  · by_cases hy : y = b
    · simp [hx, hy]
    · subst hx
      simp [hy, ← hxy, ha, Ne.symm hy]
  · by_cases hy : y = b
    · subst hy
      simp [hx, hxy, hb, Ne.symm hx]
    · simp [hx, hy, hxy]

theorem Inverse.erase (h : Inverse f g) (hab : f a = some b) :
    Inverse (Function.update f a none) (Function.update g b none) := by
  intro x y
  have hxy := h x y
  have hba := (h a b).mp hab
  simp only [Function.update_apply]
  by_cases hx : x = a
  · by_cases hy : y = b
    · simp [hx, hy]
    · subst hx
      simp [hy, ← hxy, hab, Ne.symm hy]
  · by_cases hy : y = b
    · subst hy
      simp [hx, hxy, hba, Ne.symm hx]
    · simp [hx, hy, hxy]

end inverse

end View
