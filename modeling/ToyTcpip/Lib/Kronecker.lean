import Mathlib.Data.List.GetD
import Mathlib.Tactic

/-! The transform of lists of length `2 ^ m` by the powers of the kernel `[[1, 0], [1, 1]]`, over an
operation that undoes itself. -/
namespace Kronecker

section transform

variable {α β : Type} {f : α → α → α} {m : ℕ} {u v : List α}

def transform (f : α → α → α) : ℕ → List α → List α
  | 0, u => u
  | m + 1, u =>
    let a := transform f m (u.take (2 ^ m))
    let b := transform f m (u.drop (2 ^ m))
    List.zipWith f a b ++ b

/-- The transform by the transposed kernel. -/
def transposed (f : α → α → α) : ℕ → List α → List α
  | 0, u => u
  | m + 1, u =>
    let a := transposed f m (u.take (2 ^ m))
    let b := transposed f m (u.drop (2 ^ m))
    a ++ List.zipWith f a b

theorem halves_length (h : u.length = 2 ^ (m + 1)) :
    (u.take (2 ^ m)).length = 2 ^ m ∧ (u.drop (2 ^ m)).length = 2 ^ m := by
  rw [List.length_take, List.length_drop, h, pow_succ]
  omega

theorem length_transform (h : u.length = 2 ^ m) : (transform f m u).length = 2 ^ m := by
  induction m generalizing u with
  | zero => exact h
  | succ m ih =>
    obtain ⟨ha, hb⟩ := halves_length h
    rw [transform, List.length_append, List.length_zipWith, ih ha, ih hb, pow_succ]
    omega

theorem length_transposed (h : u.length = 2 ^ m) : (transposed f m u).length = 2 ^ m := by
  induction m generalizing u with
  | zero => exact h
  | succ m ih =>
    obtain ⟨ha, hb⟩ := halves_length h
    rw [transposed, List.length_append, List.length_zipWith, ih ha, ih hb, pow_succ]
    omega

/-- What the operation keeps, the transform keeps. -/
theorem forall_mem_transposed {P : α → Prop} (hf : ∀ a b, P a → P b → P (f a b))
    (h : ∀ a ∈ u, P a) : ∀ a ∈ transposed f m u, P a := by
  induction m generalizing u with
  | zero => exact h
  | succ m ih =>
    have ha := ih (u := u.take (2 ^ m)) fun a ha => h a (List.mem_of_mem_take ha)
    have hb := ih (u := u.drop (2 ^ m)) fun a ha => h a (List.mem_of_mem_drop ha)
    intro c hc
    rcases List.mem_append.1 hc with hc | hc
    · exact ha c hc
    · obtain ⟨i, hi, rfl⟩ := List.getElem_of_mem hc
      rw [List.getElem_zipWith]
      exact hf _ _ (ha _ (List.getElem_mem _)) (hb _ (List.getElem_mem _))

/-- A map that respects the operations respects the transforms. -/
theorem map_transform {g : β → β → β} (h : α → β) (hh : ∀ a b, h (f a b) = g (h a) (h b)) (m : ℕ)
    (u : List α) : (transform f m u).map h = transform g m (u.map h) := by
  induction m generalizing u with
  | zero => rfl
  | succ m ih =>
    rw [transform, transform, List.map_append, List.map_zipWith, ih, ← List.map_take,
      ← List.map_drop, ← ih, ← ih, List.zipWith_map]
    simp only [hh]

/-- What the second application makes of the halves of the first. -/
theorem transform_append (ha : u.length = 2 ^ m) :
    transform f (m + 1) (u ++ v) = List.zipWith f (transform f m u) (transform f m v) ++
      transform f m v := by
  rw [transform, ← ha, List.take_left, List.drop_left]

theorem transposed_append (ha : u.length = 2 ^ m) : transposed f (m + 1) (u ++ v) =
    transposed f m u ++ List.zipWith f (transposed f m u) (transposed f m v) := by
  rw [transposed, ← ha, List.take_left, List.drop_left]

/-- A list of twice the length is two halves. -/
theorem exists_halves (h : u.length = 2 ^ (m + 1)) :
    ∃ a b, u = a ++ b ∧ a.length = 2 ^ m ∧ b.length = 2 ^ m :=
  ⟨_, _, (List.take_append_drop (2 ^ m) u).symm, halves_length h⟩

variable [Std.Associative f] [Std.Commutative f]

theorem zipWith_zipWith_comm {a b c d : List α} (h : a.length = b.length) (h' : a.length = c.length)
    (h'' : a.length = d.length) :
    List.zipWith f (List.zipWith f a b) (List.zipWith f c d) =
      List.zipWith f (List.zipWith f a c) (List.zipWith f b d) := by
  refine List.ext_getElem (by simp; omega) fun i _ _ => ?_
  simp only [List.getElem_zipWith]
  ac_rfl

theorem transform_zipWith (hu : u.length = 2 ^ m) (hv : v.length = 2 ^ m) :
    transform f m (List.zipWith f u v) = List.zipWith f (transform f m u) (transform f m v) := by
  induction m generalizing u v with
  | zero => rfl
  | succ m ih =>
    obtain ⟨a, b, rfl, ha, hb⟩ := exists_halves hu
    obtain ⟨c, d, rfl, hc, hd⟩ := exists_halves hv
    have hla := length_transform (f := f) ha
    have hlb := length_transform (f := f) hb
    have hlc := length_transform (f := f) hc
    have hld := length_transform (f := f) hd
    rw [List.zipWith_append (by rw [ha, hc]), transform_append (by simp [ha, hc]),
      ih ha hc, ih hb hd, transform_append ha, transform_append hc,
      List.zipWith_append (by simp [hla, hlb, hlc, hld]),
      zipWith_zipWith_comm (by rw [hla, hlc]) (by rw [hla, hlb]) (by rw [hla, hld])]

omit [Std.Associative f] [Std.Commutative f] in
theorem zipWith_cancel (hself : ∀ a b, f (f a b) b = a) (h : u.length = v.length) :
    List.zipWith f (List.zipWith f u v) v = u := by
  refine List.ext_getElem (by simp [h]) fun i _ _ => ?_
  simp only [List.getElem_zipWith, hself]

/-- Applied twice the transform gives back what it was given. -/
theorem transform_transform (hself : ∀ a b, f (f a b) b = a) (h : u.length = 2 ^ m) :
    transform f m (transform f m u) = u := by
  induction m generalizing u with
  | zero => rfl
  | succ m ih =>
    obtain ⟨a, b, rfl, ha, hb⟩ := exists_halves h
    have hla := length_transform (f := f) ha
    have hlb := length_transform (f := f) hb
    rw [transform_append ha, transform_append (by simp [hla, hlb]),
      transform_zipWith hla hlb, ih ha, ih hb, zipWith_cancel hself (by rw [ha, hb])]

end transform

/-! ### Passes over the whole list -/

section passes

variable {α : Type} {f : α → α → α} [Inhabited α] {m step : ℕ} {u v : List α}

/-- Each element at an even multiple of `step` takes in its partner, `step` further on. -/
def pass (f : α → α → α) (step : ℕ) (u : List α) : List α :=
  u.mapIdx fun i x => if i / step % 2 = 0 then f x (u.getD (i + step) default) else x

/-- The passes of width `1`, `2`, `4`, … -/
def passes (f : α → α → α) : ℕ → List α → List α
  | 0, u => u
  | m + 1, u => pass f (2 ^ m) (passes f m u)

@[simp] theorem length_pass : (pass f step u).length = u.length := List.length_mapIdx

@[simp] theorem length_passes : (passes f m u).length = u.length := by
  induction m with
  | zero => rfl
  | succ m ih => rw [passes, length_pass, ih]

/-- A narrow pass works on the parts of a list one by one. -/
theorem pass_append (hu : 2 * step ∣ u.length) (hstep : 0 < step) :
    pass f step (u ++ v) = pass f step u ++ pass f step v := by
  obtain ⟨k, hk⟩ := hu
  have hmul : u.length = 2 * k * step := by rw [hk]; ring
  refine List.ext_getElem (by simp) fun i hi _ => ?_
  rcases lt_or_ge i u.length with hlt | hge
  · rw [List.getElem_append_left (by simpa using hlt)]
    simp only [pass, List.getElem_mapIdx, List.getElem_append_left hlt]
    split_ifs with heven
    · have hpartner : i + step < u.length := by
        rw [hmul, ← Nat.div_lt_iff_lt_mul hstep] at hlt ⊢
        rw [Nat.add_div_right _ hstep]
        omega
      rw [List.getD_append _ _ _ _ hpartner]
    · rfl
  · rw [List.getElem_append_right (by simpa using hge)]
    simp only [pass, List.getElem_mapIdx, List.getElem_append_right hge, List.length_mapIdx]
    have hdiv : i / step = (i - u.length) / step + 2 * k := by
      rw [← Nat.add_mul_div_right _ _ hstep, ← hmul, Nat.sub_add_cancel hge]
    have hpartner : i - u.length + step = i + step - u.length := by omega
    rw [hdiv, Nat.add_mul_mod_self_left, List.getD_append_right _ _ _ _ (by omega), hpartner]

theorem passes_append (hu : u.length = 2 ^ m) {k : ℕ} (hk : k ≤ m) :
    passes f k (u ++ v) = passes f k u ++ passes f k v := by
  induction k with
  | zero => rfl
  | succ k ih =>
    have hdvd : 2 * 2 ^ k ∣ (passes f k u).length := by
      rw [length_passes, hu, ← pow_succ']
      exact pow_dvd_pow 2 hk
    rw [passes, ih (by omega), pass_append hdvd (Nat.two_pow_pos k), passes, passes]

/-- The widest pass adds the second half to the first. -/
theorem pass_halves (hu : u.length = 2 ^ m) (hv : v.length = 2 ^ m) :
    pass f (2 ^ m) (u ++ v) = List.zipWith f u v ++ v := by
  have hpos := Nat.two_pow_pos m
  refine List.ext_getElem (by simp [hu, hv]) fun i hi _ => ?_
  have hlen : i < 2 ^ m + 2 ^ m := by simpa [hu, hv] using hi
  simp only [pass, List.getElem_mapIdx]
  rcases lt_or_ge i (2 ^ m) with hlt | hge
  · have hpartner : i + 2 ^ m - u.length = i := by omega
    rw [Nat.div_eq_of_lt hlt, if_pos rfl, List.getElem_append_left (by omega),
      List.getElem_append_left (by simp; omega), List.getElem_zipWith,
      List.getD_append_right _ _ _ _ (by omega), hpartner, List.getD_eq_getElem _ _ (by omega)]
  · have hone : i / 2 ^ m = 1 := Nat.div_eq_of_lt_le (by omega) (by omega)
    rw [hone, if_neg (by decide), List.getElem_append_right (by omega),
      List.getElem_append_right (by simp; omega)]
    simp [hu, hv]

/-- The passes, each twice as wide as the one before, make up the transform. -/
theorem passes_eq_transform (h : u.length = 2 ^ m) : passes f m u = transform f m u := by
  induction m generalizing u with
  | zero => rfl
  | succ m ih =>
    obtain ⟨a, b, rfl, ha, hb⟩ := exists_halves h
    rw [passes, passes_append ha le_rfl, ih ha, ih hb, transform_append ha,
      pass_halves (length_transform ha) (length_transform hb)]

end passes

end Kronecker
