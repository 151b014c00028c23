import Mathlib.Tactic

/-! A shared list of entries in which some are ours: bringing ours in line with a wanted set without
touching the others. -/
namespace Reconcile

variable {E κ : Type*} {own : E → Bool} {key : E → κ} {l l' : List E} {e r : E} {k : κ}

/-- The entries that are not ours, in order. -/
def others (own : E → Bool) (l : List E) : List E := l.filter fun e => !own e

/-- No two entries of ours have the same key. -/
def Unique (own : E → Bool) (key : E → κ) (l : List E) : Prop := ((l.filter own).map key).Nodup

theorem Unique.eq (h : Unique own key l) (he : e ∈ l) (hr : r ∈ l) (hoe : own e = true)
    (hor : own r = true) (hk : key e = key r) : e = r :=
  List.inj_on_of_nodup_map h (List.mem_filter.mpr ⟨he, hoe⟩) (List.mem_filter.mpr ⟨hr, hor⟩) hk

theorem Unique.sublist (h : Unique own key l) (hs : l'.Sublist l) : Unique own key l' :=
  List.Nodup.sublist ((hs.filter own).map key) h

theorem Unique.subperm (h : Unique own key l) (hs : (l'.filter own).Subperm (l.filter own)) :
    Unique own key l' := by
  obtain ⟨m, hperm, hsub⟩ := hs
  exact ((hperm.map key).nodup_iff).mp (List.Nodup.sublist (hsub.map key) h)

theorem unique_nil : Unique own key [] := List.nodup_nil

theorem unique_cons : Unique own key (e :: l) ↔
    (own e = true → ∀ r ∈ l, own r = true → key r ≠ key e) ∧ Unique own key l := by
  by_cases he : own e = true
  · simp only [Unique, List.filter_cons, he, ↓reduceIte, List.map_cons, List.nodup_cons,
      List.mem_map, List.mem_filter, not_exists, not_and, true_implies, and_imp]
  · simp [Unique, he]

theorem others_filter {p : E → Bool} (hp : ∀ e, own e = false → p e = true) :
    others own (l.filter p) = others own l := by
  rw [others, List.filter_filter]
  refine List.filter_congr fun e _ => ?_
  cases ho : own e
  · simp [hp e ho]
  · simp

/-- The entry of ours under a key is the one looked for if and only if that one is there. -/
theorem any_find?_iff {fits same : E → Bool} (h : Unique own key l) (he : own e = true)
    (hfits : ∀ r ∈ l, own r = true → (fits r = true ↔ key r = key e))
    (hsame : ∀ r ∈ l, own r = true → key r = key e → (same r = true ↔ r = e)) :
    ((l.filter own).find? fits).any same = true ↔ e ∈ l := by
  have hfound : ∀ r, (l.filter own).find? fits = some r →
      r ∈ l ∧ own r = true ∧ key r = key e := by
    intro r hr
    obtain ⟨hin, hown⟩ := List.mem_filter.mp (List.mem_of_find?_eq_some hr)
    exact ⟨hin, hown, (hfits r hin hown).mp (List.find?_some hr)⟩
  rw [Option.any_eq_true]
  constructor
  · rintro ⟨r, hr, hs⟩
    obtain ⟨hin, hown, hk⟩ := hfound r hr
    obtain rfl := (hsame r hin hown hk).mp hs
    exact hin
  · intro hin
    have hsome : ((l.filter own).find? fits).isSome := by
      rw [List.find?_isSome]
      exact ⟨e, List.mem_filter.mpr ⟨hin, he⟩, (hfits e hin he).mpr rfl⟩
    obtain ⟨r, hr⟩ := Option.isSome_iff_exists.mp hsome
    obtain ⟨hr', hown, hk⟩ := hfound r hr
    obtain rfl := h.eq hr' hin hown he hk
    exact ⟨r, hr, (hsame r hin he rfl).mpr rfl⟩

/-- A search that passes over ours is a search of the others. -/
theorem find?_others {p : E → Bool} :
    l.find? (fun e => !own e && p e) = (others own l).find? p := by
  rw [others, List.find?_filter]
  congr 1
  funext e
  simp

/-- `l'` is `l` with the entry of ours under the key of `e` replaced by `e`, or `e` added. -/
structure Put (own : E → Bool) (key : E → κ) (l : List E) (e : E) (l' : List E) : Prop where
  mem : ∀ r, own r = true → (r ∈ l' ↔ r = e ∨ r ∈ l ∧ key r ≠ key e)
  others : others own l' = others own l
  unique : Unique own key l'

/-- One wanted entry at a time is put in place unless it is there already. -/
theorem settle {T α : Type*} {routes : T → List E} {Good : T → Prop} (entry : α → E)
    (put : T → α → T) (already : T → α → Bool) (wanted : List α)
    (hput : ∀ t, ∀ a ∈ wanted, Good t → Unique own key (routes t) →
      Good (put t a) ∧ Put own key (routes t) (entry a) (routes (put t a)))
    (halready : ∀ t, ∀ a ∈ wanted, Good t → Unique own key (routes t) →
      (already t a = true ↔ entry a ∈ routes t))
    (hkeys : (wanted.map fun a => key (entry a)).Nodup)
    (hown : ∀ a ∈ wanted, own (entry a) = true) :
    ∀ t, Good t → Unique own key (routes t) →
      let t' := wanted.foldl (fun t a => if already t a then t else put t a) t
      Good t' ∧ Unique own key (routes t') ∧ others own (routes t') = others own (routes t) ∧
        ∀ r, own r = true → (r ∈ routes t' ↔ (∃ a ∈ wanted, entry a = r) ∨
          r ∈ routes t ∧ ∀ a ∈ wanted, key r ≠ key (entry a)) := by
  induction wanted with
  | nil => exact fun t hgood huniq => ⟨hgood, huniq, rfl, by simp⟩
  | cons a wanted ih =>
    intro t hgood huniq
    rw [List.map_cons, List.nodup_cons] at hkeys
    obtain ⟨hfresh, hkeys⟩ := hkeys
    have hfresh : ∀ b ∈ wanted, key (entry a) ≠ key (entry b) := fun b hb heq =>
      hfresh (List.mem_map.mpr ⟨b, hb, heq.symm⟩)
    have hin := hown a (by simp)
    have ih := ih (fun t x hx => hput t x (by simp [hx]))
      (fun t x hx => halready t x (by simp [hx])) hkeys (fun x hx => hown x (by simp [hx]))
    rw [List.foldl_cons]
    simp only [List.mem_cons, forall_eq_or_imp, exists_eq_or_imp]
    by_cases hthere : already t a = true
    · have hmem := (halready t a (by simp) hgood huniq).mp hthere
      rw [if_pos hthere]
      obtain ⟨hgood', huniq', hothers, hiff⟩ := ih t hgood huniq
      refine ⟨hgood', huniq', hothers, fun r hr => (hiff r hr).trans ?_⟩
      constructor
      · rintro (hw | ⟨hl, hk⟩)
        · exact .inl (.inr hw)
        · by_cases heq : key r = key (entry a)
          · exact .inl (.inl (huniq.eq hmem hl hin hr heq.symm))
          · exact .inr ⟨hl, heq, hk⟩
      · rintro ((rfl | hw) | ⟨hl, -, hk⟩)
        · exact .inr ⟨hmem, hfresh⟩
        · exact .inl hw
        · exact .inr ⟨hl, hk⟩
    · rw [if_neg hthere]
      obtain ⟨hgood₁, hone⟩ := hput t a (by simp) hgood huniq
      obtain ⟨hgood', huniq', hothers, hiff⟩ := ih (put t a) hgood₁ hone.unique
      refine ⟨hgood', huniq', hothers.trans hone.others, fun r hr => (hiff r hr).trans ?_⟩
      rw [hone.mem r hr]
      constructor
      · rintro (hw | ⟨rfl | ⟨hl, hne⟩, hk⟩)
        · exact .inl (.inr hw)
        · exact .inl (.inl rfl)
        · exact .inr ⟨hl, hne, hk⟩
      · rintro ((rfl | hw) | ⟨hl, hne, hk⟩)
        · exact .inr ⟨.inl rfl, hfresh⟩
        · exact .inl hw
        · exact .inr ⟨.inr ⟨hl, hne⟩, hk⟩

/-! ### Stable sorting leaves the others alone -/

section sorting

variable {rel : E → E → Prop} [DecidableRel rel]

/-- A stable sort of a list whose others are in order keeps the others as they are. -/
theorem others_insertionSort (h : (others own l).Pairwise rel) :
    others own (l.insertionSort rel) = others own l := by
  have hsub : (others own l).Sublist (l.insertionSort rel) :=
    List.sublist_insertionSort h List.filter_sublist
  have hsub := hsub.filter fun e => !own e
  have hself : (others own l).filter (fun e => !own e) = others own l := by
    simp [others, List.filter_filter]
  rw [hself] at hsub
  refine (hsub.eq_of_length ?_).symm
  exact ((List.perm_insertionSort rel l).filter _).length_eq.symm

theorem unique_insertionSort (h : Unique own key l) : Unique own key (l.insertionSort rel) :=
  (((List.perm_insertionSort rel l).filter own).map key).nodup_iff.mpr h

end sorting

end Reconcile
