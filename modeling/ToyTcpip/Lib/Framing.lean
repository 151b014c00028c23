import Mathlib.Tactic

/-! Streams read item by item, whatever the pieces they arrive in. -/
namespace Framing

variable {α ι ε : Type*}

/-- What a reader makes of the start of its input. -/
inductive Verdict (α ι ε : Type*) where
  | wait
  | bad (e : ε)
  | item (i : ι) (rest : List α)

/-- A verdict is final: input that comes later does not change it. -/
structure Final (read : List α → Verdict α ι ε) : Prop where
  bad : ∀ xs ys e, read xs = .bad e → read (xs ++ ys) = .bad e
  item : ∀ xs ys i rest, read xs = .item i rest → read (xs ++ ys) = .item i (rest ++ ys)
  shorter : ∀ xs i rest, read xs = .item i rest → rest.length < xs.length

variable {read : List α → Verdict α ι ε}

/-- The items at the start of the input, and what stopped the reading. -/
inductive Reads (read : List α → Verdict α ι ε) : List α → List ι → Except ε (List α) → Prop
  | wait {xs : List α} (h : read xs = .wait) : Reads read xs [] (.ok xs)
  | bad {xs : List α} {e : ε} (h : read xs = .bad e) : Reads read xs [] (.error e)
  | item {xs rest : List α} {i : ι} {items : List ι} {stop : Except ε (List α)}
      (h : read xs = .item i rest) (hrest : Reads read rest items stop) :
      Reads read xs (i :: items) stop

namespace Reads

variable {xs ys rest : List α} {items items' : List ι} {stop stop' : Except ε (List α)} {e : ε}

theorem unique (h : Reads read xs items stop) (h' : Reads read xs items' stop') :
    items = items' ∧ stop = stop' := by
  induction h generalizing items' with
  | wait h =>
    cases h' with
    | wait _ => exact ⟨rfl, rfl⟩
    | bad h' => rw [h] at h'; cases h'
    | item h' _ => rw [h] at h'; cases h'
  | bad h =>
    cases h' with
    | wait h' => rw [h] at h'; cases h'
    | bad h' => rw [h] at h'; cases h'; exact ⟨rfl, rfl⟩
    | item h' _ => rw [h] at h'; cases h'
  | item h _ ih =>
    cases h' with
    | wait h' => rw [h] at h'; cases h'
    | bad h' => rw [h] at h'; cases h'
    | item h' hrest' =>
      rw [h] at h'
      cases h'
      obtain ⟨rfl, rfl⟩ := ih hrest'
      exact ⟨rfl, rfl⟩

theorem total (hfinal : Final read) (xs : List α) : ∃ items stop, Reads read xs items stop := by
  induction hn : xs.length using Nat.strongRecOn generalizing xs with
  | _ n ih =>
    cases hread : read xs with
    | wait => exact ⟨_, _, .wait hread⟩
    | bad e => exact ⟨_, _, .bad hread⟩
    | item i rest =>
      obtain ⟨items, stop, hrest⟩ := ih rest.length (hn ▸ hfinal.shorter xs i rest hread) rest rfl
      exact ⟨_, _, .item hread hrest⟩

/-- A reading that failed fails the same way on a longer input. -/
theorem append_error (hfinal : Final read) (h : Reads read xs items (.error e)) (ys : List α) :
    Reads read (xs ++ ys) items (.error e) := by
  generalize hstop : (.error e : Except ε (List α)) = stop at h
  induction h with
  | wait _ => cases hstop
  | bad h => cases hstop; exact .bad (hfinal.bad _ ys _ h)
  | item h _ ih => exact .item (hfinal.item _ ys _ _ h) (ih hstop)

/-- A reading that waits goes on where it stopped. -/
theorem append_ok (hfinal : Final read) (h : Reads read xs items (.ok rest))
    (h' : Reads read (rest ++ ys) items' stop) : Reads read (xs ++ ys) (items ++ items') stop := by
  generalize hstop : (.ok rest : Except ε (List α)) = stop₁ at h
  induction h with
  | wait _ => cases hstop; exact h'
  | bad _ => cases hstop
  | item h _ ih => exact .item (hfinal.item _ ys _ _ h) (ih hstop)

/-- The rest a reading leaves has no item and no error at its start. -/
theorem wait_rest (h : Reads read xs items (.ok rest)) : read rest = .wait := by
  generalize hstop : (.ok rest : Except ε (List α)) = stop at h
  induction h with
  | wait h => cases hstop; exact h
  | bad _ => cases hstop
  | item _ _ ih => exact ih hstop

end Reads

end Framing
