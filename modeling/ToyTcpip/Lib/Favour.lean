import Mathlib.Data.List.Rotate
import Mathlib.Order.Basic
import Mathlib.Tactic

/-! Choosing a best element of a list: the current one if it is among the best, else the first. -/
namespace Favour

variable {κ ν σ : Type*} [DecidableEq κ] [LinearOrder σ] {score : κ × ν → σ} {current : Option κ}
  {l l' fixed rest : List (κ × ν)} {c d : κ × ν} {k : κ}

/-- No element has a better score. -/
def Best (score : κ × ν → σ) (l : List (κ × ν)) (c : κ × ν) : Prop :=
  c ∈ l ∧ ∀ d ∈ l, score d ≤ score c

def choose (score : κ × ν → σ) (current : Option κ) (l : List (κ × ν)) : Option κ :=
  match (l.map score).max? with
  | none => none
  | some best =>
    if current.any fun k => (l.find? fun c => c.1 = k).any fun c => score c = best then current
    else (l.find? fun c => score c = best).map Prod.fst

omit [DecidableEq κ] in
theorem max?_eq_some_iff {best : σ} :
    (l.map score).max? = some best ↔ ∃ c, Best score l c ∧ score c = best := by
  rw [List.max?_eq_some_iff]
  constructor
  · rintro ⟨hmem, hle⟩
    obtain ⟨c, hc, rfl⟩ := List.mem_map.mp hmem
    exact ⟨c, ⟨hc, fun d hd => hle _ (List.mem_map_of_mem hd)⟩, rfl⟩
  · rintro ⟨c, ⟨hc, hle⟩, rfl⟩
    refine ⟨List.mem_map_of_mem hc, fun b hb => ?_⟩
    obtain ⟨d, hd, rfl⟩ := List.mem_map.mp hb
    exact hle d hd

omit [DecidableEq κ] in
theorem Best.score_eq (hc : Best score l c) (hd : d ∈ l) : score d = score c ↔ Best score l d := by
  constructor
  · intro heq
    exact ⟨hd, fun e he => heq ▸ hc.2 e he⟩
  · intro hbest
    exact le_antisymm (hc.2 d hd) (hbest.2 c hc.1)

/-- The element that the current key stands for is the first one with that key. -/
def CurrentBest (score : κ × ν → σ) (current : Option κ) (l : List (κ × ν)) : Prop :=
  ∃ k ∈ current, ∃ c ∈ l.find? (fun c => c.1 = k), Best score l c

theorem choose_of_best (hc : Best score l c) (hd : CurrentBest score current l) :
    choose score current l = current := by
  obtain ⟨k, hk, d, hfind, hbest⟩ := hd
  obtain rfl := Option.mem_def.mp hk
  have hscore : score d = score c := (hc.score_eq hbest.1).mpr hbest
  have hmax := max?_eq_some_iff.mpr ⟨c, hc, rfl⟩
  simp only [choose, hmax, Option.any_some, Option.mem_def.mp hfind, hscore,
    decide_true, ↓reduceIte]

theorem choose_of_not_best (hc : Best score l c) (hd : ¬ CurrentBest score current l) :
    choose score current l = (l.find? fun d => score d = score c).map Prod.fst := by
  have hmax := max?_eq_some_iff.mpr ⟨c, hc, rfl⟩
  simp only [choose, hmax]
  rw [if_neg]
  intro hany
  apply hd
  obtain ⟨k, hk, hany⟩ := Option.any_eq_true _ _ |>.mp hany
  obtain ⟨d, hfind, hscore⟩ := Option.any_eq_true _ _ |>.mp hany
  have hmem := List.mem_of_find?_eq_some hfind
  exact ⟨k, hk, d, hfind, (hc.score_eq hmem).mp (by simpa using hscore)⟩

omit [DecidableEq κ] in
theorem exists_best (hne : l ≠ []) : ∃ c, Best score l c := by
  obtain ⟨best, hmax⟩ : ∃ best, (l.map score).max? = some best := by
    rw [← Option.isSome_iff_exists, ← Option.ne_none_iff_isSome, ne_eq, List.max?_eq_none_iff]
    simpa using hne
  obtain ⟨c, hc, -⟩ := max?_eq_some_iff.mp hmax
  exact ⟨c, hc⟩

/-- Only nothing is chosen from nothing, and what is chosen is a best element. -/
theorem choose_spec : (choose score current l = none ↔ l = []) ∧
    ∀ k, choose score current l = some k → ∃ c, Best score l c ∧ c.1 = k := by
  rcases eq_or_ne l [] with rfl | hne
  · simp [choose]
  · obtain ⟨c, hc⟩ := @exists_best _ _ _ _ score _ hne
    by_cases hd : CurrentBest score current l
    · rw [choose_of_best hc hd]
      obtain ⟨k, hk, d, hfind, hbest⟩ := hd
      obtain rfl := Option.mem_def.mp hk
      refine ⟨by simp [hne], fun k' hk' => ⟨d, hbest, ?_⟩⟩
      have hkey := List.find?_some hfind
      simp only [decide_eq_true_eq] at hkey
      rw [hkey, Option.some.inj hk']
    · rw [choose_of_not_best hc hd]
      obtain ⟨d, hfind⟩ : ∃ d, l.find? (fun d => score d = score c) = some d := by
        rw [← Option.isSome_iff_exists, List.find?_isSome]
        exact ⟨c, hc.1, by simp⟩
      have hmem := List.mem_of_find?_eq_some hfind
      have hscore : score d = score c := by simpa using List.find?_some hfind
      rw [hfind]
      refine ⟨by simp [hne], fun k hk => ⟨d, (hc.score_eq hmem).mp hscore, ?_⟩⟩
      exact Option.some.inj hk

theorem find?_key (hkeys : (l.map Prod.fst).Nodup) (hc : c ∈ l) :
    l.find? (fun d => d.1 = c.1) = some c := by
  induction l with
  | nil => simp at hc
  | cons d rest ih =>
    rw [List.map_cons, List.nodup_cons] at hkeys
    rcases List.mem_cons.mp hc with rfl | hc
    · simp
    · have hne : d.1 ≠ c.1 := fun heq => hkeys.1 (heq ▸ List.mem_map_of_mem hc)
      rw [List.find?_cons_of_neg (by simpa using hne)]
      exact ih hkeys.2 hc

theorem currentBest_iff (hkeys : (l.map Prod.fst).Nodup) :
    CurrentBest score current l ↔ ∃ c, Best score l c ∧ current = some c.1 := by
  constructor
  · rintro ⟨k, hk, c, hfind, hbest⟩
    have hkey : c.1 = k := by simpa using List.find?_some hfind
    exact ⟨c, hbest, hkey ▸ hk⟩
  · rintro ⟨c, hbest, hcurrent⟩
    exact ⟨c.1, hcurrent, c, find?_key hkeys hbest.1, hbest⟩

/-- With one element for each key, the current one stays if it is among the best. -/
theorem choose_current (hkeys : (l.map Prod.fst).Nodup) (hc : Best score l c) :
    choose score (some c.1) l = some c.1 :=
  choose_of_best hc ((currentBest_iff hkeys).mpr ⟨c, hc, rfl⟩)

/-! ### A part of the list in any order -/

omit [DecidableEq κ] in
theorem best_congr (h : ∀ c, c ∈ l ↔ c ∈ l') : Best score l c ↔ Best score l' c := by
  simp only [Best, h]

/-- The choice is settled without the order of all elements: the current one is best, or one of the
first part is, or only one is. -/
def Settled (score : κ × ν → σ) (current : Option κ) (fixed rest : List (κ × ν)) : Prop :=
  (∃ c, Best score (fixed ++ rest) c ∧ current = some c.1) ∨
  (∃ c ∈ fixed, Best score (fixed ++ rest) c) ∨
  ∀ c d, Best score (fixed ++ rest) c → Best score (fixed ++ rest) d → c = d

theorem choose_of_perm (hkeys : ((fixed ++ rest).map Prod.fst).Nodup)
    (hs : Settled score current fixed rest) {rest' : List (κ × ν)} (hperm : rest'.Perm rest) :
    choose score current (fixed ++ rest') = choose score current (fixed ++ rest) := by
  have hwhole : (fixed ++ rest').Perm (fixed ++ rest) := hperm.append_left fixed
  have hkeys' : ((fixed ++ rest').map Prod.fst).Nodup := (hwhole.map _).nodup_iff.mpr hkeys
  have hbest : ∀ c, Best score (fixed ++ rest') c ↔ Best score (fixed ++ rest) c :=
    fun c => best_congr fun d => hwhole.mem_iff
  rcases eq_or_ne (fixed ++ rest) [] with hnil | hne
  · have hnil' : fixed ++ rest' = [] := List.perm_nil.mp (hnil ▸ hwhole)
    rw [hnil, hnil']
  obtain ⟨c, hc⟩ := @exists_best _ _ _ _ score _ hne
  by_cases hd : CurrentBest score current (fixed ++ rest)
  · have hd' : CurrentBest score current (fixed ++ rest') := by
      rw [currentBest_iff hkeys']
      simpa only [hbest] using (currentBest_iff hkeys).mp hd
    rw [choose_of_best hc hd, choose_of_best ((hbest c).mpr hc) hd']
  · have hd' : ¬ CurrentBest score current (fixed ++ rest') := by
      rw [currentBest_iff hkeys']
      simpa only [hbest, currentBest_iff hkeys] using hd
    rw [choose_of_not_best hc hd, choose_of_not_best ((hbest c).mpr hc) hd']
    rcases hs with hcur | ⟨d, hfix, hdbest⟩ | hone
    · exact absurd ((currentBest_iff hkeys).mpr hcur) hd
    · -- The first best element stands in the first part.
      have hsome : ((fixed.find? fun e => score e = score c)).isSome = true := by
        rw [List.find?_isSome]
        exact ⟨d, hfix, by simpa using (hc.score_eq hdbest.1).mpr hdbest⟩
      obtain ⟨e, he⟩ := Option.isSome_iff_exists.mp hsome
      simp only [List.find?_append, he, Option.some_or]
    · -- Both searches find the only best element.
      have hfind : ∀ l : List (κ × ν), (∀ e, e ∈ l ↔ e ∈ fixed ++ rest) →
          l.find? (fun e => score e = score c) = some c := by
        intro l hl
        obtain ⟨e, he⟩ : ∃ e, l.find? (fun e => score e = score c) = some e := by
          rw [← Option.isSome_iff_exists, List.find?_isSome]
          exact ⟨c, (hl c).mpr hc.1, by simp⟩
        have hmem := (hl e).mp (List.mem_of_find?_eq_some he)
        have hscore : score e = score c := by simpa using List.find?_some he
        rw [he, hone e c ((hc.score_eq hmem).mp hscore) hc]
      rw [hfind _ fun e => hwhole.mem_iff, hfind _ fun e => Iff.rfl]

/-- If it is not settled, whichever best element comes first after the first part is chosen. -/
theorem choose_first (hkeys : ((fixed ++ c :: rest).map Prod.fst).Nodup)
    (hc : Best score (fixed ++ c :: rest) c)
    (hcurrent : ∀ d, Best score (fixed ++ c :: rest) d → current ≠ some d.1)
    (hfixed : ∀ d ∈ fixed, ¬ Best score (fixed ++ c :: rest) d) :
    choose score current (fixed ++ c :: rest) = some c.1 := by
  have hd : ¬ CurrentBest score current (fixed ++ c :: rest) := by
    rw [currentBest_iff hkeys]
    rintro ⟨d, hbest, heq⟩
    exact hcurrent d hbest heq
  have hnone : fixed.find? (fun e => score e = score c) = none := by
    rw [List.find?_eq_none]
    intro d hmem hscore
    exact hfixed d hmem ((hc.score_eq (List.mem_append_left _ hmem)).mp (by simpa using hscore))
  rw [choose_of_not_best hc hd, List.find?_append, hnone]
  simp

end Favour
