import ToyTcpip.Lib.Checked

/-! Items that are read one after the other, each from where the last one ended. -/
namespace Tiled

open Checked (bind_eq_ok)

variable {ε α : Type} {read : ℕ → Checked ε (α × ℕ)} {n offset next stop : ℕ} {a : α}
  {items rest : List α}

def readMany (read : ℕ → Checked ε (α × ℕ)) : ℕ → ℕ → Checked ε (List α × ℕ)
  | 0, offset => .ok ([], offset)
  | n + 1, offset =>
    (read offset).bind fun first =>
      (readMany read n first.2).bind fun rest => .ok (first.1 :: rest.1, rest.2)

/-- The items fill the range from `offset` to `stop`. -/
inductive Fills (read : ℕ → Checked ε (α × ℕ)) : ℕ → List α → ℕ → Prop
  | nil {offset : ℕ} : Fills read offset [] offset
  | cons {offset next stop : ℕ} {a : α} {rest : List α} (first : read offset = .ok (a, next))
      (others : Fills read next rest stop) : Fills read offset (a :: rest) stop

theorem readMany_eq_ok_iff : readMany read n offset = .ok (items, stop) ↔
    items.length = n ∧ Fills read offset items stop := by
  induction n generalizing offset items with
  | zero =>
    rw [readMany]
    constructor
    · intro h
      cases h
      exact ⟨rfl, .nil⟩
    · rintro ⟨hlen, hfills⟩
      obtain rfl := List.length_eq_zero_iff.mp hlen
      cases hfills
      rfl
  | succ n ih =>
    rw [readMany, bind_eq_ok]
    constructor
    · rintro ⟨⟨a, next⟩, hfirst, h⟩
      obtain ⟨⟨rest, last⟩, hrest, h⟩ := bind_eq_ok.mp h
      cases h
      obtain ⟨hlen, hfills⟩ := ih.mp hrest
      exact ⟨by rw [List.length_cons, hlen], .cons hfirst hfills⟩
    · rintro ⟨hlen, hfills⟩
      cases hfills with
      | nil => cases hlen
      | cons hfirst hrest =>
        refine ⟨_, hfirst, bind_eq_ok.mpr ⟨_, ih.mpr ⟨Nat.succ.inj hlen, hrest⟩, rfl⟩⟩

namespace Fills

theorem append (h : Fills read offset items next) (hrest : Fills read next rest stop) :
    Fills read offset (items ++ rest) stop := by
  induction h with
  | nil => exact hrest
  | cons first _ ih => exact .cons first (ih hrest)

end Fills

end Tiled
