import Std.Data.TreeMap
import Mathlib.Data.Finmap
import Mathlib.Data.List.Sort
import Mathlib.Tactic

/-! Lists of keyed entries: sorting by a key, and the map that mirrors them. -/
namespace Keyed

section sorting

variable {α : Type*} {r : α → α → Prop} [DecidableRel r] {f : α → ℕ} {a : α} {l : List α}

theorem pairwise_orderedInsert (hl : l.Pairwise fun x y => f x < f y)
    (hr : ∀ x ∈ l, r a x ↔ f a < f x) (hne : ∀ x ∈ l, f a ≠ f x) :
    (l.orderedInsert r a).Pairwise fun x y => f x < f y := by
  induction l with
  | nil => simp
  | cons b rest ih =>
    obtain ⟨hb, hrest⟩ := List.pairwise_cons.mp hl
    rw [List.orderedInsert_cons]
    split
    · rename_i hab
      have hlt : f a < f b := (hr b List.mem_cons_self).mp hab
      refine List.pairwise_cons.mpr ⟨fun x hx => ?_, hl⟩
      rcases List.mem_cons.mp hx with rfl | hx
      · exact hlt
      · exact hlt.trans (hb x hx)
    · rename_i hab
      have hlt : f b < f a := by
        have hnot := mt (hr b List.mem_cons_self).mpr hab
        have hdiff := hne b List.mem_cons_self
        omega
      refine List.pairwise_cons.mpr ⟨fun x hx => ?_, ih hrest ?_ ?_⟩
      · rcases (List.mem_orderedInsert r).mp hx with rfl | hx
        · exact hlt
        · exact hb x hx
      · exact fun x hx => hr x (List.mem_cons_of_mem _ hx)
      · exact fun x hx => hne x (List.mem_cons_of_mem _ hx)

/-- A comparison that agrees with distinct keys sorts by the key, total or not. -/
theorem pairwise_insertionSort (hr : ∀ x ∈ l, ∀ y ∈ l, r x y ↔ f x < f y)
    (hne : l.Pairwise fun x y => f x ≠ f y) :
    (l.insertionSort r).Pairwise fun x y => f x < f y := by
  induction l with
  | nil => simp
  | cons a rest ih =>
    obtain ⟨ha, hrest⟩ := List.pairwise_cons.mp hne
    rw [List.insertionSort_cons]
    apply pairwise_orderedInsert
    · exact ih (fun x hx y hy => hr x (List.mem_cons_of_mem _ hx) y (List.mem_cons_of_mem _ hy))
        hrest
    · intro x hx
      exact hr a List.mem_cons_self x (List.mem_cons_of_mem _ ((List.mem_insertionSort r).mp hx))
    · exact fun x hx => ha x ((List.mem_insertionSort r).mp hx)

/-- A sort whose comparison ties no two elements does not depend on the order before. -/
theorem insertionSort_eq_of_perm {l' : List α} [Std.Total r] [IsTrans α r] (h : l.Perm l')
    (hties : ∀ x ∈ l, ∀ y ∈ l, r x y → r y x → x = y) : l.insertionSort r = l'.insertionSort r := by
  refine List.Perm.eq_of_pairwise (fun x y hx hy => ?_) (List.pairwise_insertionSort r l)
    (List.pairwise_insertionSort r l') ?_
  · exact hties x ((List.mem_insertionSort r).mp hx) y
      (h.mem_iff.mpr ((List.mem_insertionSort r).mp hy))
  · exact (List.perm_insertionSort r l).trans (h.trans (List.perm_insertionSort r l').symm)

end sorting

section mirror

variable {κ β : Type*} [Ord κ] [Std.TransOrd κ] [Std.LawfulEqOrd κ]
  {l : List (κ × β)} {k : κ} {v : β}

/-- Inserting entries with distinct keys into the empty map gives exactly these entries. -/
theorem getElem?_foldl_insert (h : l.Pairwise fun x y => x.1 ≠ y.1) :
    (l.foldl (fun m e => m.insert e.1 e.2) (∅ : Std.TreeMap κ β))[k]? = some v ↔ (k, v) ∈ l := by
  classical
  suffices hgen : ∀ m : Std.TreeMap κ β, (∀ e ∈ l, m[e.1]? = none) →
      ((l.foldl (fun m e => m.insert e.1 e.2) m)[k]? = some v ↔ m[k]? = some v ∨ (k, v) ∈ l) by
    simpa using hgen ∅ (by simp)
  induction l with
  | nil => simp
  | cons e rest ih =>
    intro m hm
    obtain ⟨he, hrest⟩ := List.pairwise_cons.mp h
    have hinsert : ∀ k', (m.insert e.1 e.2)[k']? = if e.1 = k' then some e.2 else m[k']? := by
      intro k'
      rw [Std.TreeMap.getElem?_insert]
      simp only [Std.LawfulEqOrd.compare_eq_iff_eq]
    rw [List.foldl_cons, ih hrest _ ?_, hinsert]
    · have hnone := hm e List.mem_cons_self
      by_cases hk : e.1 = k
      · subst hk
        have hnot : (e.1, v) ∉ rest := fun hmem => he _ hmem rfl
        simp [hnone, hnot, Prod.ext_iff, eq_comm]
      · have hne : (k, v) ≠ e := fun heq => hk (by rw [← heq])
        simp [hk, hne]
    · intro x hx
      rw [hinsert, if_neg (he x hx)]
      exact hm x (List.mem_cons_of_mem _ hx)

end mirror

section weight

variable {κ β : Type*} [DecidableEq κ] {s t : AList fun _ : κ => β} {k : κ} {v : β}

/-- The total of a measure over the values of an association list. -/
def weight (f : β → ℕ) (s : AList fun _ : κ => β) : ℕ := (s.entries.map fun e => f e.2).sum

variable {f : β → ℕ}

theorem erase_of_notMem (h : k ∉ s) : s.erase k = s :=
  AList.ext (List.kerase_of_notMem_keys h)

theorem weight_erase (h : v ∈ s.lookup k) : weight f (s.erase k) + f v = weight f s := by
  have hmem := AList.mem_lookup_iff.mp h
  obtain ⟨v', l₁, l₂, hnot, heq, herase⟩ := List.exists_of_kerase (List.mem_keys_of_mem hmem)
  have hv : v' = v := by
    have hmem' : ⟨k, v'⟩ ∈ s.entries := by simp [heq]
    exact s.nodupKeys.eq_of_mk_mem hmem' hmem
  subst hv
  have hleft : (s.erase k).entries = l₁ ++ l₂ := herase
  simp only [weight, hleft, heq, List.map_append, List.map_cons, List.sum_append, List.sum_cons]
  omega

omit [DecidableEq κ] in
theorem weight_perm (h : s.entries.Perm t.entries) : weight f s = weight f t :=
  (h.map _).sum_eq

theorem length_erase_le : (s.erase k).entries.length ≤ s.entries.length :=
  (List.kerase_sublist k s.entries).length_le

theorem length_erase_lt (h : k ∈ s) : (s.erase k).entries.length < s.entries.length := by
  obtain ⟨v, l₁, l₂, -, heq, herase⟩ := List.exists_of_kerase (AList.mem_keys.mp h)
  have hleft : (s.erase k).entries = l₁ ++ l₂ := herase
  simp [hleft, heq]

theorem length_insert : (s.insert k v).entries.length = (s.erase k).entries.length + 1 := by
  simp [AList.erase]

end weight

end Keyed
