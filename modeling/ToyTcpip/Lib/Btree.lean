import Mathlib.Tactic

/-! Ordered maps as lists of entries whose keys increase; `rank` gives the place of a key. -/
namespace Btree

variable {κ ν : Type*} {rank : κ → ℕ} {m : List (κ × ν)} {e e' : κ × ν} {k : κ} {v : ν}
  {p : κ × ν → Bool}

def Sorted (rank : κ → ℕ) (m : List (κ × ν)) : Prop := m.Pairwise fun e e' => rank e.1 < rank e'.1

/-- Replaces the value of a key that is there. -/
def insert (rank : κ → ℕ) (k : κ) (v : ν) : List (κ × ν) → List (κ × ν)
  | [] => [(k, v)]
  | e :: m =>
    if rank k < rank e.1 then (k, v) :: e :: m
    else if rank k = rank e.1 then (k, v) :: m
    else e :: insert rank k v m

def get (rank : κ → ℕ) (m : List (κ × ν)) (k : κ) : Option ν :=
  (m.find? fun e => rank e.1 = rank k).map (·.2)

def remove (rank : κ → ℕ) (m : List (κ × ν)) (k : κ) : List (κ × ν) :=
  m.eraseP fun e => rank e.1 = rank k

theorem Sorted.eq_of_rank_eq (h : Sorted rank m) (he : e ∈ m) (he' : e' ∈ m)
    (hr : rank e.1 = rank e'.1) : e = e' := by
  have hnodup : (m.map fun e => rank e.1).Nodup :=
    List.pairwise_map.mpr (h.imp fun hlt => hlt.ne)
  exact List.inj_on_of_nodup_map hnodup he he' hr

/-- A relation between every entry and the later ones holds for keys in their order. -/
theorem Sorted.rel_of_lt {R : κ × ν → κ × ν → Prop} (h : Sorted rank m) (hR : m.Pairwise R)
    (he : e ∈ m) (he' : e' ∈ m) (hlt : rank e.1 < rank e'.1) : R e e' := by
  induction m with
  | nil => cases he
  | cons a m ih =>
    obtain ⟨ha, hm⟩ := List.pairwise_cons.mp h
    obtain ⟨hRa, hRm⟩ := List.pairwise_cons.mp hR
    rcases List.mem_cons.mp he with rfl | hem
    · rcases List.mem_cons.mp he' with rfl | hem'
      · omega
      · exact hRa e' hem'
    · rcases List.mem_cons.mp he' with rfl | hem'
      · have := ha e hem
        omega
      · exact ih hm hRm hem hem'

theorem mem_insert (h : Sorted rank m) :
    e ∈ insert rank k v m ↔ e = (k, v) ∨ e ∈ m ∧ rank e.1 ≠ rank k := by
  induction m with
  | nil => simp [insert]
  | cons a m ih =>
    obtain ⟨ha, hm⟩ := List.pairwise_cons.mp h
    rw [insert]
    split_ifs with hlt heq
    · have hne : ∀ b ∈ a :: m, rank b.1 ≠ rank k := by
        intro b hb
        rcases List.mem_cons.mp hb with rfl | hb
        · omega
        · have := ha b hb
          omega
      simp only [List.mem_cons]
      constructor
      · rintro (rfl | hb)
        · exact .inl rfl
        · exact .inr ⟨hb, hne e (List.mem_cons.mpr hb)⟩
      · rintro (rfl | hb)
        · exact .inl rfl
        · exact .inr hb.1
    · have hne : ∀ b ∈ m, rank b.1 ≠ rank k := fun b hb => heq ▸ (ha b hb).ne'
      simp only [List.mem_cons]
      constructor
      · rintro (rfl | hb)
        · exact .inl rfl
        · exact .inr ⟨.inr hb, hne e hb⟩
      · rintro (rfl | ⟨rfl | hb, hr⟩)
        · exact .inl rfl
        · exact absurd heq.symm hr
        · exact .inr hb
    · rw [List.mem_cons, ih hm, List.mem_cons]
      constructor
      · rintro (rfl | rfl | hb)
        · exact .inr ⟨.inl rfl, by omega⟩
        · exact .inl rfl
        · exact .inr ⟨.inr hb.1, hb.2⟩
      · rintro (rfl | ⟨rfl | hb, hr⟩)
        · exact .inr (.inl rfl)
        · exact .inl rfl
        · exact .inr (.inr ⟨hb, hr⟩)

theorem sorted_insert (h : Sorted rank m) : Sorted rank (insert rank k v m) := by
  induction m with
  | nil => simp [insert, Sorted]
  | cons a m ih =>
    obtain ⟨ha, hm⟩ := List.pairwise_cons.mp h
    rw [insert]
    split_ifs with hlt heq
    · refine List.pairwise_cons.mpr ⟨?_, h⟩
      intro b hb
      rcases List.mem_cons.mp hb with rfl | hb
      · exact hlt
      · exact hlt.trans (ha b hb)
    · exact List.pairwise_cons.mpr ⟨fun b hb => heq ▸ ha b hb, hm⟩
    · refine List.pairwise_cons.mpr ⟨?_, ih hm⟩
      intro b hb
      rcases (mem_insert hm).mp hb with rfl | hb
      · dsimp only
        omega
      · exact ha b hb.1

theorem Sorted.sublist {m' : List (κ × ν)} (h : Sorted rank m) (hsub : m'.Sublist m) :
    Sorted rank m' := List.Pairwise.sublist hsub h

theorem get_eq_some (h : Sorted rank m) (hrank : Function.Injective rank) :
    get rank m k = some v ↔ (k, v) ∈ m := by
  rw [get, Option.map_eq_some_iff]
  constructor
  · rintro ⟨e, he, rfl⟩
    have hk : e.1 = k := hrank (by simpa using List.find?_some he)
    rw [← hk]
    exact List.mem_of_find?_eq_some he
  · intro hmem
    cases hfind : m.find? fun e => rank e.1 = rank k with
    | none => exact absurd (List.find?_eq_none.mp hfind _ hmem) (by simp)
    | some e =>
      have hr : rank e.1 = rank k := by simpa using List.find?_some hfind
      exact ⟨e, rfl, by rw [h.eq_of_rank_eq (List.mem_of_find?_eq_some hfind) hmem hr]⟩

theorem get_eq_none : get rank m k = none ↔ ∀ e ∈ m, rank e.1 ≠ rank k := by
  simp [get]

theorem mem_remove (h : Sorted rank m) : e ∈ remove rank m k ↔ e ∈ m ∧ rank e.1 ≠ rank k := by
  constructor
  · intro he
    refine ⟨List.mem_of_mem_eraseP he, ?_⟩
    intro hr
    induction m with
    | nil => simp [remove] at he
    | cons a m ih =>
      obtain ⟨ha, hm⟩ := List.pairwise_cons.mp h
      by_cases hak : rank a.1 = rank k
      · rw [remove, List.eraseP_cons_of_pos (by simpa using hak)] at he
        have := ha e he
        omega
      · rw [remove, List.eraseP_cons_of_neg (by simpa using hak)] at he
        rcases List.mem_cons.mp he with rfl | he
        · exact hak hr
        · exact ih hm he
  · rintro ⟨he, hr⟩
    exact (List.mem_eraseP_of_neg (by simpa using hr)).mpr he

theorem sorted_remove (h : Sorted rank m) : Sorted rank (remove rank m k) :=
  h.sublist List.eraseP_sublist

theorem length_remove_lt (h : get rank m k = some v) : (remove rank m k).length < m.length := by
  rw [get, Option.map_eq_some_iff] at h
  obtain ⟨e, he, -⟩ := h
  have hmem := List.mem_of_find?_eq_some he
  have hr : rank e.1 = rank k := by simpa using List.find?_some he
  have hpos := List.length_pos_of_mem hmem
  rw [remove, List.length_eraseP_of_mem hmem (by simpa using hr)]
  omega

end Btree
