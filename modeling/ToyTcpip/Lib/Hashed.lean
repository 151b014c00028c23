import Mathlib.Data.Finmap
import Mathlib.Tactic

/-! Hash maps as association lists, with the order of iteration left open. -/
namespace Hashed

abbrev HashMap (κ ν : Type) : Type := AList fun _ : κ => ν

/-- The order in which the entries of a hash map come. -/
class HashOrder where
  iter {α : Type} : List α → List α
  perm {α : Type} (l : List α) : (iter l).Perm l

/-- One order that a hash map may have: the latest insertion first. -/
@[reducible] def latestFirst : HashOrder := ⟨fun l => l, fun l => List.Perm.refl l⟩

section preferring

variable {κ : Type} {a : κ} {l : List κ} {p : κ → Bool}

open Classical in
/-- The order that has `a` before all others. -/
@[reducible] noncomputable def preferring (a : κ) : HashOrder where
  iter l := l.filter (fun x => decide (x ≍ a)) ++ l.filter fun x => !decide (x ≍ a)
  perm l := List.filter_append_perm _ l

theorem find?_preferring (hmem : a ∈ l) (hp : p a = true) :
    ((preferring a).iter l).find? p = some a := by
  classical
  have hfirst : (l.filter fun x => decide (x ≍ a)).find? p = some a := by
    cases h : (l.filter fun x => decide (x ≍ a)).find? p with
    | none =>
      have := List.find?_eq_none.mp h a (List.mem_filter.mpr ⟨hmem, by simp⟩)
      exact absurd hp this
    | some x =>
      have hx := (List.mem_filter.mp (List.mem_of_find?_eq_some h)).2
      rw [eq_of_heq (of_decide_eq_true hx)]
  change (_ ++ _ : List κ).find? p = some a
  rw [List.find?_append, hfirst, Option.some_or]

end preferring

section order

variable [HashOrder] {α : Type} {a : α} {l : List α}

@[simp] theorem mem_iter : a ∈ HashOrder.iter l ↔ a ∈ l := (HashOrder.perm l).mem_iff

end order

section maps

variable {κ ν : Type} [DecidableEq κ] {k k' : κ} {v : ν} {s : HashMap κ ν} {p : κ → ν → Bool}

/-- `HashMap::retain`. -/
def retain (p : κ → ν → Bool) (s : HashMap κ ν) : HashMap κ ν :=
  ⟨s.entries.filter fun e => p e.1 e.2, List.NodupKeys.sublist List.filter_sublist s.nodupKeys⟩

/-- `values_mut` with a function on the values. -/
def mapValues (f : ν → ν) (s : HashMap κ ν) : HashMap κ ν :=
  ⟨s.entries.map fun e => ⟨e.1, f e.2⟩, by
    have hkeys : (s.entries.map fun e : Sigma fun _ : κ => ν =>
        (⟨e.1, f e.2⟩ : Sigma fun _ => ν)).keys =
        s.entries.keys := by simp [List.keys, Function.comp_def]
    rw [List.NodupKeys, hkeys]
    exact s.nodupKeys⟩

/-- `contains_key`. -/
def hasKey (s : HashMap κ ν) (k : κ) : Bool := (s.lookup k).isSome

theorem mem_entries : (⟨k, v⟩ : Sigma fun _ : κ => ν) ∈ s.entries ↔ s.lookup k = some v :=
  AList.mem_lookup_iff.symm

theorem lookup_retain : (retain p s).lookup k = (s.lookup k).filter (p k) := by
  ext v
  rw [← mem_entries, Option.filter_eq_some_iff, ← mem_entries]
  simp [retain]

theorem lookup_mapValues {f : ν → ν} : (mapValues f s).lookup k = (s.lookup k).map f := by
  ext v
  rw [← mem_entries, Option.map_eq_some_iff]
  simp only [mapValues, List.mem_map, ← mem_entries]
  constructor
  · rintro ⟨⟨k', w⟩, hw, h⟩
    cases h
    exact ⟨w, hw, rfl⟩
  · rintro ⟨w, hw, rfl⟩
    exact ⟨⟨k, w⟩, hw, rfl⟩

theorem lookup_insert_of (s : HashMap κ ν) (k : κ) (v : ν) (k' : κ) :
    (s.insert k v).lookup k' = if k' = k then some v else s.lookup k' := by
  split
  · rename_i h
    rw [h, AList.lookup_insert]
  · rename_i h
    rw [AList.lookup_insert_ne h]

/-- What every value has, every value still has when the inserted one has it. -/
theorem forall_insert_iff {P : ν → Prop} (h : ∀ k v, s.lookup k = some v → P v) :
    (∀ k' v', (s.insert k v).lookup k' = some v' → P v') ↔ P v := by
  constructor
  · intro hall
    exact hall k v (AList.lookup_insert s)
  · intro hv k' v' hk'
    rw [lookup_insert_of] at hk'
    split at hk'
    · exact Option.some.inj hk' ▸ hv
    · exact h k' v' hk'

/-- A loop over the entries that inserts under some of the keys. -/
def collect [HashOrder] {μ : Type} (p : κ → Bool) (f : κ → ν → μ) (s : HashMap κ ν) : HashMap κ μ :=
  (HashOrder.iter s.entries).foldl
    (fun out e => if p e.1 then out.insert e.1 (f e.1 e.2) else out) ∅

theorem lookup_collect [HashOrder] {μ : Type} {p : κ → Bool} {f : κ → ν → μ} :
    (collect p f s).lookup k = if p k then (s.lookup k).map (f k) else none := by
  have hfold : ∀ (es : List (Sigma fun _ : κ => ν)) (out : HashMap κ μ), es.NodupKeys →
      (es.foldl (fun out e => if p e.1 then out.insert e.1 (f e.1 e.2) else out) out).lookup k =
        if p k then ((es.dlookup k).map (f k)).or (out.lookup k) else out.lookup k := by
    intro es
    induction es with
    | nil => simp
    | cons e es ih =>
      intro out hnodup
      rw [List.nodupKeys_cons] at hnodup
      rw [List.foldl_cons, ih _ hnodup.2]
      by_cases hk : k = e.1
      · subst hk
        rw [List.dlookup_eq_none.mpr hnodup.1, List.dlookup_cons_eq]
        by_cases hp : p e.1 = true
        · simp [hp]
        · simp [hp]
      · rw [List.dlookup_cons_ne _ _ hk]
        by_cases hp : p e.1 = true
        · simp [hp, hk]
        · simp [hp]
  have hperm := HashOrder.perm s.entries
  have hnodup := (List.perm_nodupKeys hperm).mpr s.nodupKeys
  rw [collect, hfold _ _ hnodup, List.perm_dlookup k hnodup hperm, AList.lookup_empty,
    Option.or_none]
  rfl

theorem lookup_erase_of (s : HashMap κ ν) (k k' : κ) :
    (s.erase k).lookup k' = if k' = k then none else s.lookup k' := by
  split
  · rename_i h
    rw [h, AList.lookup_erase]
  · rename_i h
    rw [AList.lookup_erase_ne h]

theorem erase_insert (s : HashMap κ ν) (k : κ) (v : ν) : (s.insert k v).erase k = s.erase k :=
  AList.ext (by simp [AList.erase, AList.insert, List.kinsert])

/-- No two keys have related values. -/
def Apart (r : ν → ν → Prop) (s : HashMap κ ν) : Prop :=
  ∀ k k' v v', s.lookup k = some v → s.lookup k' = some v' → r v v' → k = k'

/-- No two keys have one value. -/
def Distinct (s : HashMap κ ν) : Prop := Apart Eq s

variable {r : ν → ν → Prop}

theorem apart_empty : Apart r (∅ : HashMap κ ν) := by
  intro k k' v v' h
  simp at h

/-- A value may be added that is related to none of the other keys. -/
theorem apart_insert_iff (hsymm : ∀ v v', r v v' → r v' v) (h : Apart r s) :
    Apart r (s.insert k v) ↔ ∀ k' v', k' ≠ k → s.lookup k' = some v' → ¬ r v' v := by
  constructor
  · intro hnew k' v' hne hv' hr
    exact hne (hnew k' k v' v (by rwa [lookup_insert_of, if_neg hne]) (AList.lookup_insert s) hr)
  · intro hfree k₁ k₂ v₁ v₂ h₁ h₂ hr
    rw [lookup_insert_of] at h₁ h₂
    split_ifs at h₁ h₂ with hk₁ hk₂ hk₂
    · rw [hk₁, hk₂]
    · cases h₁
      exact absurd (hsymm _ _ hr) (hfree k₂ v₂ hk₂ h₂)
    · cases h₂
      exact absurd hr (hfree k₁ v₁ hk₁ h₁)
    · exact h k₁ k₂ v₁ v₂ h₁ h₂ hr

theorem apart_erase (h : Apart r s) (k : κ) : Apart r (s.erase k) := by
  intro k₁ k₂ v₁ v₂ h₁ h₂ hr
  rw [lookup_erase_of] at h₁ h₂
  split_ifs at h₁ h₂
  exact h k₁ k₂ v₁ v₂ h₁ h₂ hr

theorem distinct_insert_iff (h : Distinct s) :
    Distinct (s.insert k v) ↔ ∀ k', k' ≠ k → s.lookup k' ≠ some v := by
  rw [Distinct, apart_insert_iff (fun _ _ => Eq.symm) h]
  constructor
  · intro hfree k' hne hv
    exact hfree k' v hne hv rfl
  · rintro hfree k' v' hne hv' rfl
    exact hfree k' hne hv'

end maps

end Hashed
