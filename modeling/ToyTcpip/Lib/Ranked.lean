import Mathlib.Data.List.Sort
import Mathlib.Tactic

/-! Lists kept in order of preference, and the best of their elements that fit a query. -/
namespace Ranked

variable {α : Type*}

section best

variable {len dist : α → ℕ} {p : α → Bool} {l : List α} {a b : α}

/-- A greater length first, then a smaller distance. -/
def Precedes (len dist : α → ℕ) (a b : α) : Prop :=
  len b < len a ∨ len a = len b ∧ dist a ≤ dist b

instance : DecidableRel (Precedes len dist) := fun _ _ => inferInstanceAs (Decidable (_ ∨ _))

instance : Std.Total (Precedes len dist) :=
  ⟨fun a b => by unfold Precedes; omega⟩

instance : IsTrans α (Precedes len dist) :=
  ⟨fun a b c => by unfold Precedes; omega⟩

/-- The stable sort by preference. -/
def arrange (len dist : α → ℕ) (l : List α) : List α := l.insertionSort (Precedes len dist)

theorem pairwise_arrange (l : List α) : (arrange len dist l).Pairwise (Precedes len dist) :=
  List.pairwise_insertionSort _ l

theorem mem_arrange : a ∈ arrange len dist l ↔ a ∈ l := List.mem_insertionSort _

/-- Among the elements that fit, none is longer and none as long is nearer. -/
structure Best (len dist : α → ℕ) (p : α → Prop) (l : List α) (a : α) : Prop where
  mem : a ∈ l
  fits : p a
  longest : ∀ b ∈ l, p b → len b ≤ len a
  nearest : ∀ b ∈ l, p b → len b = len a → dist a ≤ dist b

/-- In an arranged list the first element that fits is a best one. -/
theorem find?_best (h : l.Pairwise (Precedes len dist)) (hf : l.find? p = some a) :
    Best len dist (fun b => p b = true) l a := by
  have hfirst : ∀ b ∈ l, p b = true → Precedes len dist a b := by
    induction l with
    | nil => simp
    | cons c rest ih =>
      obtain ⟨hc, hrest⟩ := List.pairwise_cons.mp h
      intro b hb hpb
      by_cases hpc : p c = true
      · obtain rfl : c = a := by simpa [List.find?_cons, hpc] using hf
        rcases List.mem_cons.mp hb with rfl | hb
        · exact .inr ⟨rfl, le_rfl⟩
        · exact hc b hb
      · rw [List.find?_cons_of_neg hpc] at hf
        rcases List.mem_cons.mp hb with rfl | hb
        · exact absurd hpb hpc
        · exact ih hrest hf b hb hpb
  refine ⟨List.mem_of_find?_eq_some hf, List.find?_some hf, fun b hb hpb => ?_,
    fun b hb hpb heq => ?_⟩ <;> rcases hfirst b hb hpb with hlt | ⟨hle, hd⟩ <;> omega

/-- The elements tied with the best one are the best ones. -/
def tied (len dist : α → ℕ) (p : α → Bool) (l : List α) (best : α) : List α :=
  l.filter fun b => p b && len b = len best && dist b = dist best

theorem mem_tied (h : Best len dist (fun b => p b = true) l a) :
    b ∈ tied len dist p l a ↔ Best len dist (fun b => p b = true) l b := by
  simp only [tied, List.mem_filter, Bool.and_eq_true, decide_eq_true_eq]
  constructor
  · rintro ⟨hb, ⟨hpb, hlen⟩, hdist⟩
    refine ⟨hb, hpb, fun c hc hpc => ?_, fun c hc hpc heq => ?_⟩
    · rw [hlen]
      exact h.longest c hc hpc
    · rw [hdist]
      exact h.nearest c hc hpc (heq.trans hlen)
  · intro hb
    have hlen : len b = len a :=
      le_antisymm (h.longest b hb.mem hb.fits) (hb.longest a h.mem h.fits)
    refine ⟨hb.mem, ⟨hb.fits, hlen⟩, ?_⟩
    exact le_antisymm (hb.nearest a h.mem h.fits hlen.symm) (h.nearest b hb.mem hb.fits hlen)

end best

/-! ### Choosing one of several -/

section choice

variable {l : List α} {a : α}

/-- The element a hash selects. -/
def nth (l : List α) (hash : ℕ) : Option α := l[hash % l.length]?

theorem nth_eq_none {hash : ℕ} : nth l hash = none ↔ l = [] := by
  rw [nth, List.getElem?_eq_none_iff]
  constructor
  · intro h
    by_contra hne
    have := Nat.mod_lt hash (List.length_pos_of_ne_nil hne)
    omega
  · rintro rfl
    simp

theorem mem_of_nth {hash : ℕ} (h : nth l hash = some a) : a ∈ l := List.mem_of_getElem? h

/-- The last of the greatest elements, as `max_by` finds it. -/
def maxBy (cmp : α → α → Ordering) : List α → Option α
  | [] => none
  | a :: rest => some (rest.foldl (fun best next => if cmp best next = .gt then best else next) a)

theorem maxBy_eq_none {cmp : α → α → Ordering} : maxBy cmp l = none ↔ l = [] := by
  cases l <;> simp [maxBy]

theorem mem_of_maxBy {cmp : α → α → Ordering} (h : maxBy cmp l = some a) : a ∈ l := by
  have hfold : ∀ (rest : List α) (x : α),
      rest.foldl (fun best next => if cmp best next = .gt then best else next) x ∈ x :: rest := by
    intro rest
    induction rest with
    | nil => simp
    | cons y rest ih =>
      intro x
      rw [List.foldl_cons]
      rcases List.mem_cons.mp (ih (if cmp x y = .gt then x else y)) with heq | hin
      · rw [heq]
        split <;> simp
      · exact List.mem_cons_of_mem _ (List.mem_cons_of_mem _ hin)
  cases l with
  | nil => simp [maxBy] at h
  | cons x rest =>
    obtain rfl := Option.some.inj h
    exact hfold rest x

/-- The chosen element is as great as any other. -/
theorem isGE_of_maxBy {cmp : α → α → Ordering} [Std.TransCmp cmp] (h : maxBy cmp l = some a) :
    ∀ b ∈ l, (cmp a b).isGE := by
  have hfold : ∀ (rest : List α) (x : α), ∀ b ∈ x :: rest,
      (cmp (rest.foldl (fun best next => if cmp best next = .gt then
        best else next) x) b).isGE := by
    intro rest
    induction rest with
    | nil => simp [Std.ReflCmp.compare_self]
    | cons y rest ih =>
      intro x b hb
      rw [List.foldl_cons]
      have hhead := ih (if cmp x y = .gt then x else y) _ List.mem_cons_self
      rcases List.mem_cons.mp hb with rfl | hb
      · refine Std.TransCmp.isGE_trans hhead ?_
        split_ifs with hgt
        · simp [Std.ReflCmp.compare_self]
        · exact Std.OrientedCmp.isGE_of_isLE (Ordering.isLE_iff_ne_gt.mpr hgt)
      · rcases List.mem_cons.mp hb with rfl | hb
        · refine Std.TransCmp.isGE_trans hhead ?_
          split_ifs with hgt
          · exact Ordering.isGE_of_eq_gt hgt
          · simp [Std.ReflCmp.compare_self]
        · exact ih _ b (List.mem_cons_of_mem _ hb)
  cases l with
  | nil => simp
  | cons x rest =>
    obtain rfl := Option.some.inj h
    exact hfold rest x

/-- Where only equal elements tie, the choice depends on the elements alone, not on their order. -/
theorem maxBy_eq_some {cmp : α → α → Ordering} [Std.TransCmp cmp]
    (hanti : ∀ a ∈ l, ∀ b ∈ l, cmp a b = .eq → a = b) :
    maxBy cmp l = some a ↔ a ∈ l ∧ ∀ b ∈ l, (cmp a b).isGE := by
  constructor
  · exact fun h => ⟨mem_of_maxBy h, isGE_of_maxBy h⟩
  · rintro ⟨ha, hge⟩
    obtain ⟨c, hc⟩ := Option.ne_none_iff_exists'.mp (mt maxBy_eq_none.mp (List.ne_nil_of_mem ha))
    have hcl := mem_of_maxBy hc
    rw [hc, hanti c hcl a ha (Std.OrientedCmp.isGE_antisymm (isGE_of_maxBy hc a ha) (hge c hcl))]

end choice

end Ranked
