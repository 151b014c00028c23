import Mathlib.Tactic

/-! Lempel-Ziv tokens against a fixed dictionary: literal runs, and copies from a distance before
its end. -/
namespace Lz77

variable {α : Type*} {dict s : List α} {i j pos len : ℕ}

inductive Token (α : Type*) where
  | literal (run : List α)
  | copy (dist len : ℕ)

/-- What a token stands for. -/
def Token.expand (dict : List α) : Token α → List α
  | .literal run => run
  | .copy dist len => (dict.drop (dict.length - dist)).take len

/-- A copy lies inside the dictionary. -/
def Token.Inside (dict : List α) : Token α → Prop
  | .literal _ => True
  | .copy dist len => 0 < dist ∧ len ≤ dist ∧ dist ≤ dict.length

def expand (dict : List α) (tokens : List (Token α)) : List α := tokens.flatMap (·.expand dict)

theorem expand_append (dict : List α) (t t' : List (Token α)) :
    expand dict (t ++ t') = expand dict t ++ expand dict t' := List.flatMap_append

theorem expand_cons (dict : List α) (t : Token α) (tokens : List (Token α)) :
    expand dict (t :: tokens) = t.expand dict ++ expand dict tokens := rfl

theorem expand_literals (dict : List α) (runs : List (List α)) :
    expand dict (runs.map .literal) = runs.flatten := by
  simp [expand, Token.expand, List.flatMap_map]

/-- A piece of the input between two positions, in front of the next one. -/
theorem drop_split (hij : i ≤ j) : (s.take j).drop i ++ s.drop j = s.drop i := by
  obtain ⟨k, rfl⟩ := Nat.exists_eq_add_of_le hij
  rw [List.drop_take, Nat.add_sub_cancel_left, ← List.drop_drop]
  exact List.take_append_drop k (s.drop i)

/-- Where dictionary and input agree from two positions on, the input can be copied. -/
theorem take_drop_eq (h : ∀ k < len, dict[pos + k]? = s[i + k]?) :
    (dict.drop pos).take len = (s.take (i + len)).drop i := by
  rw [List.drop_take, Nat.add_sub_cancel_left]
  apply List.ext_getElem?
  intro k
  rw [List.getElem?_take, List.getElem?_take, List.getElem?_drop, List.getElem?_drop]
  split
  · exact h k ‹_›
  · rfl

end Lz77
