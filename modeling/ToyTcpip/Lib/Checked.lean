import Mathlib.Tactic

/-! Computations that may fail with an error or read outside a slice. -/

/-- A result, an error the code reports, or an index out of range. -/
inductive Checked (ε : Type*) (α : Type*) where
  | ok (a : α)
  | error (e : ε)
  | panic
  deriving DecidableEq, Repr

namespace Checked

universe u v

variable {ε : Type u} {α β : Type v} {x : Checked ε α} {f : α → Checked ε β}

def bind (x : Checked ε α) (f : α → Checked ε β) : Checked ε β :=
  match x with
  | ok a => f a
  | error e => error e
  | panic => panic

@[simp] theorem ok_bind (a : α) (f : α → Checked ε β) : (ok a : Checked ε α).bind f = f a := rfl

@[simp] theorem error_bind (e : ε) (f : α → Checked ε β) : (error e).bind f = error e := rfl

instance : Monad (Checked ε) where
  pure := ok
  bind := Checked.bind

@[simp] theorem bind_def (x : Checked ε α) (f : α → Checked ε β) : x >>= f = x.bind f := rfl

/-- No read outside a slice. -/
def Safe (x : Checked ε α) : Prop := x ≠ panic

@[simp] theorem safe_ok (a : α) : Safe (ok a : Checked ε α) := by simp [Safe]

@[simp] theorem safe_error (e : ε) : Safe (error e : Checked ε α) := by simp [Safe]

theorem Safe.bind (hx : Safe x) (hf : ∀ a, x = ok a → Safe (f a)) : Safe (x.bind f) := by
  cases x with
  | ok a => exact hf a rfl
  | error e => exact safe_error e
  | panic => exact absurd rfl hx

theorem safe_ite {c : Prop} [Decidable c] {x y : Checked ε α} (hx : c → Safe x)
    (hy : ¬ c → Safe y) : Safe (if c then x else y) := by
  split
  · exact hx ‹_›
  · exact hy ‹_›

theorem bind_assoc {γ : Type v} (x : Checked ε α) (f : α → Checked ε β) (g : β → Checked ε γ) :
    (x.bind f).bind g = x.bind fun a => (f a).bind g := by
  cases x <;> rfl

theorem bind_of_eq_ok {a : α} (f : α → Checked ε β) (h : x = ok a) : x.bind f = f a := by
  rw [h, ok_bind]

/-- A check that reports an error was passed when a result came out. -/
theorem ite_error_eq_ok {c : Prop} [Decidable c] {e : ε} {a : α} :
    (if c then error e else x) = ok a ↔ ¬ c ∧ x = ok a := by
  split <;> simp_all

theorem bind_eq_ok {b : β} : x.bind f = ok b ↔ ∃ a, x = ok a ∧ f a = ok b := by
  cases x <;> simp [Checked.bind]

/-! ### Slices -/

section slices

variable {xs ys : List α} {i j : ℕ}

/-- `xs[i]`. -/
def index (xs : List α) (i : ℕ) : Checked ε α :=
  match xs[i]? with
  | some a => ok a
  | none => panic

/-- `xs[i..j]`. -/
def slice (xs : List α) (i j : ℕ) : Checked ε (List α) :=
  if i ≤ j ∧ j ≤ xs.length then ok ((xs.take j).drop i) else panic

@[simp] theorem index_cons_zero (a : α) (xs : List α) : (index (a :: xs) 0 : Checked ε α) = ok a :=
  rfl

@[simp] theorem index_cons_succ (a : α) (xs : List α) (i : ℕ) :
    (index (a :: xs) (i + 1) : Checked ε α) = index xs i := rfl

theorem index_append_right (xs ys : List α) (i : ℕ) :
    (index (xs ++ ys) (xs.length + i) : Checked ε α) = index ys i := by
  rw [index, List.getElem?_append_right (by omega), Nat.add_sub_cancel_left, index]

theorem index_eq_ok {a : α} : (index xs i : Checked ε α) = ok a ↔ xs[i]? = some a := by
  unfold index
  split <;> simp_all

/-- The next element, when what follows `i` starts with it. -/
theorem index_of_drop {a : α} {post : List α} (h : xs.drop i = a :: post) :
    (index xs i : Checked ε α) = ok a := by
  rw [index_eq_ok, ← List.head?_drop, h, List.head?_cons]

theorem drop_succ_of_drop {a : α} {post : List α} (h : xs.drop i = a :: post) :
    xs.drop (i + 1) = post := by
  rw [← List.drop_drop, h, List.drop_one, List.tail_cons]

theorem safe_index (h : i < xs.length) : Safe (index xs i : Checked ε α) := by
  simp [index, List.getElem?_eq_getElem h]

theorem safe_slice (hij : i ≤ j) (hj : j ≤ xs.length) :
    Safe (slice xs i j : Checked ε (List α)) := by
  simp [slice, hij, hj]

theorem slice_eq_ok (hij : i ≤ j) (hj : j ≤ xs.length) :
    (slice xs i j : Checked ε (List α)) = ok ((xs.take j).drop i) := by
  simp [slice, hij, hj]

theorem length_of_slice (h : (slice xs i j : Checked ε (List α)) = ok ys) :
    ys.length = j - i := by
  unfold slice at h
  split at h
  · rename_i hle
    obtain rfl : (xs.take j).drop i = ys := by simpa using h
    simp
    omega
  · simp at h

/-- What follows `i`, when it starts with the wanted piece. -/
theorem slice_of_drop {mid post : List α} (hi : i ≤ xs.length) (h : xs.drop i = mid ++ post) :
    (slice xs i (i + mid.length) : Checked ε (List α)) = ok mid := by
  have hlen := congrArg List.length h
  rw [List.length_drop, List.length_append] at hlen
  rw [slice_eq_ok (by omega) (by omega), List.drop_take, h, Nat.add_sub_cancel_left, List.take_left]

theorem drop_of_slice (h : (slice xs i j : Checked ε (List α)) = ok ys) :
    j = i + ys.length ∧ j ≤ xs.length ∧ xs.drop i = ys ++ xs.drop j := by
  unfold slice at h
  split at h
  · rename_i hle
    obtain rfl : (xs.take j).drop i = ys := by simpa using h
    refine ⟨by simp; omega, hle.2, ?_⟩
    have hsplit := List.take_append_drop (j - i) (xs.drop i)
    rw [List.drop_drop, Nat.add_sub_cancel' hle.1] at hsplit
    rw [List.drop_take, hsplit]
  · simp at h

/-- The middle of three pieces. -/
theorem slice_middle (pre mid post : List α) :
    (slice (pre ++ (mid ++ post)) pre.length (pre.length + mid.length) : Checked ε (List α)) =
      ok mid := by
  have hlen : (pre ++ (mid ++ post)).length = pre.length + mid.length + post.length := by
    simp
    omega
  rw [slice_eq_ok (by omega) (by omega), ← List.append_assoc, ← List.length_append,
    List.take_left', List.drop_left'] <;> rfl

end slices

end Checked
