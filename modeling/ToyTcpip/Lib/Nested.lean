import Std.Data.TreeMap
import Std.Data.TreeSet
import Mathlib.Tactic

/-! Ordered maps of ordered maps: one table of entries for each owner. -/

/-- A type ordered through an injective key is ordered lawfully. -/
theorem Std.LawfulEqOrd.of_injective {α β : Type*} [Ord β] [Std.LawfulEqOrd β] {f : α → β}
    (hf : Function.Injective f) : @Std.LawfulEqOrd α ⟨compareOn f⟩ :=
  @Std.LawfulEqCmp.mk α (compareOn f)
    (@Std.ReflCmp.mk α (compareOn f) fun {a} => Std.compare_eq_iff_eq.mpr (rfl : f a = f a))
    fun h => hf (Std.compare_eq_iff_eq.mp h)

/-- No owner keeps an empty table. -/
structure Nested (ι κ β : Type*) [Ord ι] [Ord κ] where
  tables : Std.TreeMap ι (Std.TreeMap κ β)

namespace Nested

variable {ι κ β : Type*} [Ord ι] [Ord κ]

def empty : Nested ι κ β := ⟨∅⟩

def table (t : Nested ι κ β) (i : ι) : Std.TreeMap κ β := t.tables.getD i ∅

def get? (t : Nested ι κ β) (i : ι) (k : κ) : Option β := (t.table i)[k]?

def insert (t : Nested ι κ β) (i : ι) (k : κ) (v : β) : Nested ι κ β :=
  ⟨t.tables.insert i ((t.table i).insert k v)⟩

/-- The owner's table goes with its last entry. -/
def erase (t : Nested ι κ β) (i : ι) (k : κ) : Nested ι κ β :=
  let rest := (t.table i).erase k
  if rest.isEmpty then ⟨t.tables.erase i⟩ else ⟨t.tables.insert i rest⟩

def eraseAll (t : Nested ι κ β) (i : ι) (ks : List κ) : Nested ι κ β :=
  ks.foldl (fun t k => t.erase i k) t

def insertAll (t : Nested ι κ β) (i : ι) (es : List (κ × β)) : Nested ι κ β :=
  es.foldl (fun t e => t.insert i e.1 e.2) t

def clear (t : Nested ι κ β) (i : ι) : Nested ι κ β := ⟨t.tables.erase i⟩

def mapTable (t : Nested ι κ β) (i : ι) (f : β → β) : Nested ι κ β :=
  ⟨t.tables.modify i fun m => m.map fun _ v => f v⟩

def count (t : Nested ι κ β) (i : ι) : ℕ := (t.table i).size

/-- Every key of any owner. -/
def keys (t : Nested ι κ β) : Std.TreeSet κ :=
  t.tables.toList.foldl (fun s e => s.insertMany e.2.keys) ∅

/-- The entries under a key, in the order of their owners. -/
def candidates (t : Nested ι κ β) (k : κ) : List β :=
  t.tables.toList.filterMap fun e => e.2[k]?

/-- The entries of all owners with their keys, in order. -/
def entries (t : Nested ι κ β) : List (ι × κ × β) :=
  t.tables.toList.flatMap fun e => e.2.toList.map fun f => (e.1, f.1, f.2)

variable [Std.TransOrd κ] {t : Nested ι κ β} {i i' : ι} {k k' : κ} {v : β}

theorem count_eq_zero_iff : t.count i = 0 ↔ ∀ k, t.get? i k = none := by
  have hsize : t.count i = 0 ↔ (t.table i).isEmpty := by
    simp [count, Std.TreeMap.isEmpty_eq_size_eq_zero]
  rw [hsize, Std.TreeMap.isEmpty_iff_forall_not_mem]
  exact forall_congr' fun k => by simp [get?]

variable [Std.TransOrd ι]

@[simp] theorem get?_empty : (empty : Nested ι κ β).get? i k = none := by
  simp [get?, table, empty]

variable [Std.LawfulEqOrd ι]

theorem mem_candidates : v ∈ t.candidates k ↔ ∃ i, t.get? i k = some v := by
  simp only [candidates, List.mem_filterMap, Prod.exists,
    Std.TreeMap.mem_toList_iff_getElem?_eq_some, get?, table, Std.TreeMap.getD_eq_getD_getElem?]
  constructor
  · rintro ⟨i, m, hm, hv⟩
    exact ⟨i, by simpa [hm] using hv⟩
  · rintro ⟨i, hv⟩
    cases hm : t.tables[i]? with
    | none => simp [hm] at hv
    | some m => exact ⟨i, m, hm, by simpa [hm] using hv⟩

/-- A view of the entries under a key is a view owner by owner. -/
theorem map_candidates {γ : Type*} {t' : Nested ι κ β} {f f' : β → γ}
    (h : ∀ i, (t.get? i k).map f = (t'.get? i k).map f') :
    (t.candidates k).map f = (t'.candidates k).map f' := by
  have hview : ∀ (t : Nested ι κ β) (f : β → γ), (t.candidates k).map f =
      (t.tables.filterMap fun _ m => m[k]?.map f).toList.map Prod.snd := by
    intro t f
    rw [Std.TreeMap.toList_filterMap, candidates, List.map_filterMap, List.map_filterMap]
    congr 1
    funext e
    cases e.2[k]? <;> rfl
  have hget : ∀ (t : Nested ι κ β) (f : β → γ) (i : ι),
      (t.tables.filterMap fun _ m => m[k]?.map f)[i]? = (t.get? i k).map f := by
    intro t f i
    rw [Std.TreeMap.getElem?_filterMap', get?, table, Std.TreeMap.getD_eq_getD_getElem?]
    cases t.tables[i]? <;> simp
  rw [hview t f, hview t' f', Std.TreeMap.Equiv.toList_eq]
  apply Std.TreeMap.Equiv.of_forall_constGet?_eq
  intro i
  rw [hget, hget, h]

section clear

variable [DecidableEq ι]

@[simp] theorem get?_clear :
    (t.clear i).get? i' k = if i = i' then none else t.get? i' k := by
  by_cases hi : i = i'
  · subst hi
    simp [get?, clear, table]
  · simp [get?, clear, table, Std.TreeMap.getD_erase, hi]

end clear

variable [Std.LawfulEqOrd κ]

theorem mem_entries : (i, k, v) ∈ t.entries ↔ t.get? i k = some v := by
  simp only [entries, List.mem_flatMap, List.mem_map, Prod.mk.injEq, Prod.exists,
    Std.TreeMap.mem_toList_iff_getElem?_eq_some, get?, table, Std.TreeMap.getD_eq_getD_getElem?]
  constructor
  · rintro ⟨i', m, hm, k', v', hv, rfl, rfl, rfl⟩
    simpa [hm] using hv
  · intro h
    cases hm : t.tables[i]? with
    | none => simp [hm] at h
    | some m => exact ⟨i, m, hm, k, v, by simpa [hm] using h, rfl, rfl, rfl⟩

section keys

variable [DecidableEq κ]

theorem mem_keys : k ∈ t.keys ↔ ∃ i v, t.get? i k = some v := by
  have hfold : ∀ (l : List (ι × Std.TreeMap κ β)) (s : Std.TreeSet κ),
      k ∈ l.foldl (fun s e => s.insertMany e.2.keys) s ↔ k ∈ s ∨ ∃ e ∈ l, k ∈ e.2 := by
    intro l
    induction l with
    | nil => simp
    | cons e rest ih =>
      intro s
      rw [List.foldl_cons, ih, Std.TreeSet.mem_insertMany_list, List.contains_iff_mem,
        Std.TreeMap.mem_keys]
      simp only [List.mem_cons, exists_eq_or_imp, or_assoc]
  rw [keys, hfold]
  have hempty : k ∉ (∅ : Std.TreeSet κ) := Std.TreeSet.not_mem_emptyc
  simp only [hempty, false_or, Prod.exists, Std.TreeMap.mem_toList_iff_getElem?_eq_some, get?,
    table, Std.TreeMap.getD_eq_getD_getElem?, Std.TreeMap.mem_iff_isSome_getElem?,
    Option.isSome_iff_exists]
  constructor
  · rintro ⟨i, m, hm, v, hv⟩
    exact ⟨i, v, by simpa [hm] using hv⟩
  · rintro ⟨i, v, hv⟩
    cases hm : t.tables[i]? with
    | none => simp [hm] at hv
    | some m => exact ⟨i, m, hm, v, by simpa [hm] using hv⟩

end keys

variable [DecidableEq ι]

@[simp] theorem get?_mapTable {f : β → β} :
    (t.mapTable i f).get? i' k = if i = i' then (t.get? i' k).map f else t.get? i' k := by
  have hmap : ∀ m : Std.TreeMap κ β, (m.map fun _ v => f v)[k]? = m[k]?.map f := fun m => by
    simp [Std.TreeMap.getElem?_map]
  simp only [get?, mapTable, table, Std.TreeMap.getD_eq_getD_getElem?,
    Std.TreeMap.getElem?_modify, Std.compare_eq_iff_eq]
  by_cases hi : i = i'
  · subst hi
    cases t.tables[i]? with
    | none => simp
    | some m => simp [hmap]
  · simp [hi]

variable [DecidableEq κ]

@[simp] theorem get?_insert :
    (t.insert i k v).get? i' k' = if i = i' ∧ k = k' then some v else t.get? i' k' := by
  simp only [get?, insert, table, Std.TreeMap.getD_insert, Std.compare_eq_iff_eq]
  by_cases hi : i = i'
  · subst hi
    simp [Std.TreeMap.getElem?_insert]
  · simp [hi]

@[simp] theorem get?_erase :
    (t.erase i k).get? i' k' = if i = i' ∧ k = k' then none else t.get? i' k' := by
  have hself : ((t.table i).erase k)[k']? = if k = k' then none else t.get? i k' := by
    simp [get?, Std.TreeMap.getElem?_erase]
  simp only [erase]
  generalize (t.table i).erase k = rest at *
  by_cases hi : i = i'
  · subst hi
    by_cases he : rest.isEmpty
    · have hnone : rest[k']? = none :=
        Std.TreeMap.getElem?_eq_none (Std.TreeMap.isEmpty_iff_forall_not_mem.mp he k')
      have hif : (if k = k' then none else t.get? i k') = none := by rw [← hself, hnone]
      simp only [he, ↓reduceIte, true_and, hif]
      simp [get?, table]
    · simp only [he, true_and, ← hself]
      simp [get?, table]
  · by_cases he : rest.isEmpty
    · simp [he, hi, get?, table, Std.TreeMap.getD_erase]
    · simp [he, hi, get?, table, Std.TreeMap.getD_insert]

theorem get?_eraseAll {ks : List κ} :
    (t.eraseAll i ks).get? i' k' = if i = i' ∧ k' ∈ ks then none else t.get? i' k' := by
  induction ks generalizing t with
  | nil => simp [eraseAll]
  | cons k rest ih =>
    have hcons : t.eraseAll i (k :: rest) = (t.erase i k).eraseAll i rest := rfl
    rw [hcons, ih, get?_erase]
    by_cases hi : i = i'
    · by_cases hk : k = k'
      · simp [hi, hk]
      · simp [hi, hk, Ne.symm hk]
    · simp [hi]

/-- The latest of the inserted entries counts. -/
theorem get?_insertAll {es : List (κ × β)} : (t.insertAll i es).get? i' k =
    if i = i' then ((es.reverse.find? fun e => e.1 = k).map Prod.snd).or (t.get? i' k)
    else t.get? i' k := by
  induction es generalizing t with
  | nil => simp [insertAll]
  | cons e rest ih =>
    have hcons : t.insertAll i (e :: rest) = (t.insert i e.1 e.2).insertAll i rest := rfl
    rw [hcons, ih, get?_insert]
    by_cases hi : i = i'
    · by_cases hk : e.1 = k
      · simp [hi, hk, List.find?_append]
      · simp [hi, hk, List.find?_append]
    · simp [hi]

theorem get?_insertAll_of_not_mem {es : List (κ × β)} (h : k ∉ es.map Prod.fst) :
    (t.insertAll i es).get? i' k = t.get? i' k := by
  rw [get?_insertAll, List.find?_eq_none.mpr]
  · simp
  · intro e he hk
    exact h (List.mem_map.mpr ⟨e, List.mem_reverse.mp he, by simpa using hk⟩)

end Nested
