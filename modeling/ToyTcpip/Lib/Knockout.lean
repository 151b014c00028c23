import Mathlib.Data.List.Perm.Basic
import Mathlib.Data.Prod.Lex
import Mathlib.Tactic

/-! Knockout choice from a list by a comparison that need not be transitive. -/
namespace Knockout

variable {α : Type*}

section choice

variable {beats : α → α → Prop} [DecidableRel beats] {l : List α} {a b c : α}

/-- The challenger takes the place of the best so far when it beats it. -/
def pick (beats : α → α → Prop) [DecidableRel beats] (best next : α) : α :=
  if beats next best then next else best

/-- The winner of the successive comparisons, as `reduce` finds it. -/
def winner (beats : α → α → Prop) [DecidableRel beats] : List α → Option α
  | [] => none
  | a :: rest => some (rest.foldl (pick beats) a)

theorem pick_eq_or (beats : α → α → Prop) [DecidableRel beats] (a b : α) :
    pick beats a b = a ∨ pick beats a b = b := by
  unfold pick
  split
  · exact .inr rfl
  · exact .inl rfl

theorem foldl_pick_mem (rest : List α) (a : α) : rest.foldl (pick beats) a ∈ a :: rest := by
  induction rest generalizing a with
  | nil => simp
  | cons b rest ih =>
    rw [List.foldl_cons]
    rcases List.mem_cons.mp (ih (pick beats a b)) with heq | hin
    · rw [heq]
      rcases pick_eq_or beats a b with h | h <;> simp [h]
    · exact List.mem_cons_of_mem _ (List.mem_cons_of_mem _ hin)

theorem mem_of_winner (h : winner beats l = some c) : c ∈ l := by
  cases l with
  | nil => simp [winner] at h
  | cons a rest =>
    obtain rfl := Option.some.inj h
    exact foldl_pick_mem rest a

/-- A view that the comparison does not see through keeps the winner. -/
theorem winner_map {β : Type*} {beats' : β → β → Prop} [DecidableRel beats'] {f : α → β}
    (h : ∀ a b, beats' (f a) (f b) ↔ beats a b) (l : List α) :
    winner beats' (l.map f) = (winner beats l).map f := by
  have hfold : ∀ (rest : List α) (a : α),
      (rest.map f).foldl (pick beats') (f a) = f (rest.foldl (pick beats) a) := by
    intro rest
    induction rest with
    | nil => exact fun _ => rfl
    | cons b rest ih =>
      intro a
      have hpick : pick beats' (f a) (f b) = f (pick beats a b) := by
        by_cases hb : beats b a
        · simp [pick, h, hb]
        · simp [pick, h, hb]
      rw [List.map_cons, List.foldl_cons, List.foldl_cons, hpick, ih]
  cases l with
  | nil => rfl
  | cons a rest => exact congrArg some (hfold rest a)

/-- One that nobody in the list beats and that beats the others stays once it is reached. -/
theorem foldl_pick_eq {rest : List α} (hc : c ∈ a :: rest)
    (hbeats : ∀ d ∈ a :: rest, d ≠ c → beats c d ∧ ¬ beats d c) (hself : ¬ beats c c) :
    rest.foldl (pick beats) a = c := by
  induction rest generalizing a with
  | nil => exact (List.mem_singleton.mp hc).symm
  | cons b rest ih =>
    rw [List.foldl_cons]
    apply ih
    · by_cases hac : a = c
      · subst hac
        have hnot : ¬ beats b a := by
          by_cases hb : b = a
          · rwa [hb]
          · exact (hbeats b (by simp) hb).2
        simp [pick, hnot]
      · rcases List.mem_cons.mp hc with rfl | hc
        · exact absurd rfl hac
        · rcases List.mem_cons.mp hc with rfl | hc
          · simp [pick, (hbeats a (by simp) hac).1]
          · exact List.mem_cons_of_mem _ hc
    · intro d hd hne
      apply hbeats d _ hne
      rcases List.mem_cons.mp hd with rfl | hd
      · rcases pick_eq_or beats a b with h | h <;> simp [h]
      · exact List.mem_cons_of_mem _ (List.mem_cons_of_mem _ hd)

/-- The comparison is irreflexive, asymmetric and total on the members of a list. -/
structure Tournament (beats : α → α → Prop) (l : List α) : Prop where
  irrefl : ∀ a ∈ l, ¬ beats a a
  asymm : ∀ a ∈ l, ∀ b ∈ l, beats a b → ¬ beats b a
  total : ∀ a ∈ l, ∀ b ∈ l, a ≠ b → beats a b ∨ beats b a

omit [DecidableRel beats] in
theorem Tournament.perm {l' : List α} (h : Tournament beats l) (hp : l.Perm l') :
    Tournament beats l' :=
  ⟨fun a ha => h.irrefl a (hp.mem_iff.mpr ha),
    fun a ha b hb => h.asymm a (hp.mem_iff.mpr ha) b (hp.mem_iff.mpr hb),
    fun a ha b hb => h.total a (hp.mem_iff.mpr ha) b (hp.mem_iff.mpr hb)⟩

/-- A member that beats all the others. -/
def Champion (beats : α → α → Prop) (l : List α) (c : α) : Prop :=
  c ∈ l ∧ ∀ d ∈ l, d ≠ c → beats c d

theorem winner_of_champion (ht : Tournament beats l) (hc : Champion beats l c) :
    winner beats l = some c := by
  obtain ⟨hmem, hbeats⟩ := hc
  cases l with
  | nil => simp at hmem
  | cons a rest =>
    simp only [winner, Option.some.injEq]
    apply foldl_pick_eq hmem
    · intro d hd hne
      exact ⟨hbeats d hd hne, ht.asymm c hmem d hd (hbeats d hd hne)⟩
    · exact ht.irrefl c hmem

/-- A list's winner is the same in every order exactly when a champion exists: a member that is
beaten loses in an order that starts with it and the one that beats it. -/
theorem winner_perm_iff [DecidableEq α] (ht : Tournament beats l) (hnd : l.Nodup) :
    (∀ l', l'.Perm l → winner beats l' = winner beats l) ↔ l = [] ∨ ∃ c, Champion beats l c := by
  constructor
  · intro h
    cases hl : l with
    | nil => exact .inl rfl
    | cons x rest =>
      right
      rw [← hl]
      obtain ⟨c, hw⟩ : ∃ c, winner beats l = some c := by simp [hl, winner]
      have hmem := mem_of_winner hw
      refine ⟨c, hmem, fun d hd hne => ?_⟩
      refine (ht.total c hmem d hd (Ne.symm hne)).resolve_right fun hbeaten => ?_
      have hd' : d ∈ l.erase c := (List.mem_erase_of_ne hne).mpr hd
      have hperm : l.Perm (c :: d :: (l.erase c).erase d) :=
        (List.perm_cons_erase hmem).trans ((List.perm_cons_erase hd').cons c)
      have hout := hnd.perm hperm
      have hlose : winner beats (c :: d :: (l.erase c).erase d) = some c :=
        (h _ hperm.symm).trans hw
      simp only [winner, List.foldl_cons, Option.some.injEq] at hlose
      have hin : ((l.erase c).erase d).foldl (pick beats) (pick beats c d) ∈
          pick beats c d :: (l.erase c).erase d := foldl_pick_mem _ _
      rw [hlose, pick, if_pos hbeaten] at hin
      exact (List.nodup_cons.mp hout).1 hin
  · rintro (rfl | ⟨c, hc⟩) l' hp
    · rw [List.perm_nil.mp hp]
    · rw [winner_of_champion ht hc]
      apply winner_of_champion (ht.perm hp.symm)
      exact ⟨hp.mem_iff.mpr hc.1, fun d hd => hc.2 d (hp.mem_iff.mp hd)⟩

/-- A transitive tournament that is not empty has a champion. -/
theorem exists_champion (ht : Tournament beats l) (hne : l ≠ [])
    (htrans : ∀ a ∈ l, ∀ b ∈ l, ∀ c ∈ l, beats a b → beats b c → beats a c) :
    ∃ c, Champion beats l c := by
  induction l with
  | nil => exact absurd rfl hne
  | cons a rest ih =>
    by_cases hrest : rest = []
    · exact ⟨a, by simp, by simp [hrest]⟩
    · have hsub : ∀ x ∈ rest, x ∈ a :: rest := fun x hx => List.mem_cons_of_mem _ hx
      have ht' : Tournament beats rest :=
        ⟨fun x hx => ht.irrefl x (hsub x hx),
          fun x hx y hy => ht.asymm x (hsub x hx) y (hsub y hy),
          fun x hx y hy => ht.total x (hsub x hx) y (hsub y hy)⟩
      obtain ⟨c, hc, hbeats⟩ := ih ht' hrest fun x hx y hy z hz =>
        htrans x (hsub x hx) y (hsub y hy) z (hsub z hz)
      by_cases hac : beats a c
      · refine ⟨a, by simp, fun d hd hne => ?_⟩
        have hd : d ∈ rest := (List.mem_cons.mp hd).resolve_left hne
        by_cases hdc : d = c
        · rwa [hdc]
        · exact htrans a (by simp) c (hsub c hc) d (hsub d hd) hac (hbeats d hd hdc)
      · refine ⟨c, hsub c hc, fun d hd hdc => ?_⟩
        rcases List.mem_cons.mp hd with rfl | hd
        · exact (ht.total d (by simp) c (hsub c hc) hdc).resolve_left hac
        · exact hbeats d hd hdc

end choice

/-! ### Ranks with a measure compared only inside groups -/

section grouped

variable {R T : Type*} [LinearOrder R] [LinearOrder T] {rank : α → R} {group : α → α → Prop}
  {measure : α → ℕ} {tie : α → T} {l : List α} {a b c : α}

/-- The rank decides; then, inside a group, the smaller measure; then the tie-break. -/
def Prefers (rank : α → R) (group : α → α → Prop) (measure : α → ℕ) (tie : α → T) (a b : α) :
    Prop :=
  rank a < rank b ∨ rank a = rank b ∧
    (group a b ∧ measure a < measure b ∨
      (group a b → measure a = measure b) ∧ tie a < tie b)

/-- Two members of a group and a third outside it, the tie-break between them going against the
measure. -/
structure Cycle (rank : α → R) (group : α → α → Prop) (measure : α → ℕ) (tie : α → T)
    (low mid high : α) : Prop where
  rank_mid : rank mid = rank low
  rank_high : rank high = rank low
  grouped : group low high
  outside : ¬ group mid low
  measured : measure low < measure high
  high_first : tie high < tie mid
  mid_first : tie mid < tie low

/-- The members of the list have pairwise distinct tie-breaks, so the preference is a tournament. -/
theorem tournament_prefers (hsymm : ∀ a b, group a b → group b a)
    (hdistinct : ∀ a ∈ l, ∀ b ∈ l, a ≠ b → tie a ≠ tie b) :
    Tournament (Prefers rank group measure tie) l := by
  refine ⟨fun a _ h => ?_, fun a _ b _ hab hba => ?_, fun a ha b hb hne => ?_⟩
  · rcases h with h | ⟨-, ⟨-, h⟩ | ⟨-, h⟩⟩
    · exact lt_irrefl _ h
    · exact lt_irrefl _ h
    · exact lt_irrefl _ h
  · rcases hab with h | ⟨hr, ⟨hg, hm⟩ | ⟨hm, ht⟩⟩
    · rcases hba with h' | ⟨hr', -⟩
      · exact lt_asymm h h'
      · exact h.ne hr'.symm
    · rcases hba with h' | ⟨-, ⟨-, hm'⟩ | ⟨hm', -⟩⟩
      · exact h'.ne hr.symm
      · exact lt_asymm hm hm'
      · exact hm.ne (hm' (hsymm a b hg)).symm
    · rcases hba with h' | ⟨-, ⟨hg', hm'⟩ | ⟨-, ht'⟩⟩
      · exact h'.ne hr.symm
      · exact hm'.ne (hm (hsymm b a hg')).symm
      · exact lt_asymm ht ht'
  · rcases lt_trichotomy (rank a) (rank b) with hr | hr | hr
    · exact .inl (.inl hr)
    · by_cases hg : group a b
      · rcases lt_trichotomy (measure a) (measure b) with hm | hm | hm
        · exact .inl (.inr ⟨hr, .inl ⟨hg, hm⟩⟩)
        · rcases lt_or_gt_of_ne (hdistinct a ha b hb hne) with ht | ht
          · exact .inl (.inr ⟨hr, .inr ⟨fun _ => hm, ht⟩⟩)
          · exact .inr (.inr ⟨hr.symm, .inr ⟨fun _ => hm.symm, ht⟩⟩)
        · exact .inr (.inr ⟨hr.symm, .inl ⟨hsymm a b hg, hm⟩⟩)
      · rcases lt_or_gt_of_ne (hdistinct a ha b hb hne) with ht | ht
        · exact .inl (.inr ⟨hr, .inr ⟨fun h => absurd h hg, ht⟩⟩)
        · exact .inr (.inr ⟨hr.symm, .inr ⟨fun h => absurd (hsymm b a h) hg, ht⟩⟩)
    · exact .inr (.inl hr)

theorem Prefers.rank_le (h : Prefers rank group measure tie a b) : rank a ≤ rank b := by
  rcases h with h | ⟨h, -⟩
  · exact h.le
  · exact h.le

/-- With equal ranks a preference comes from the measure or from the tie-break. -/
theorem Prefers.of_rank_eq (h : Prefers rank group measure tie a b) (hr : rank a = rank b) :
    group a b ∧ measure a < measure b ∨ (group a b → measure a = measure b) ∧ tie a < tie b := by
  rcases h with h | ⟨-, h⟩
  · exact absurd hr h.ne
  · exact h

omit [LinearOrder R] in
/-- A preference by measure in a cycle of three makes the other two preferences tie-breaks against
it, and puts the third member outside the group. -/
theorem cycle_of_measured (hsymm : ∀ a b, group a b → group b a)
    (htrans : ∀ a b c, group a b → group b c → group a c) (hra : rank b = rank a)
    (hrc : rank c = rank a) (hg : group a b) (hm : measure a < measure b)
    (hbc : group b c ∧ measure b < measure c ∨ (group b c → measure b = measure c) ∧ tie b < tie c)
    (hca : group c a ∧ measure c < measure a ∨ (group c a → measure c = measure a) ∧
      tie c < tie a) :
    Cycle rank group measure tie a c b := by
  have houtside : ¬ group c a := by
    intro hgc
    have hgb : group b c := hsymm c b (htrans c a b hgc hg)
    rcases hbc with ⟨-, hbc⟩ | ⟨hbc, -⟩ <;> rcases hca with ⟨-, hca⟩ | ⟨hca, -⟩
    · omega
    · have := hca hgc
      omega
    · have := hbc hgb
      omega
    · have := hca hgc
      have := hbc hgb
      omega
  have hne : ¬ group b c := fun h => houtside (hsymm a c (htrans a b c hg h))
  refine ⟨hrc, hra, hg, houtside, hm, ?_, ?_⟩
  · rcases hbc with ⟨h, -⟩ | ⟨-, h⟩
    · exact absurd h hne
    · exact h
  · rcases hca with ⟨h, -⟩ | ⟨-, h⟩
    · exact absurd h houtside
    · exact h

/-- Every cycle of three preferences is one of measure against tie-break. -/
theorem cycle_of_prefers (hsymm : ∀ a b, group a b → group b a)
    (htrans : ∀ a b c, group a b → group b c → group a c)
    (hab : Prefers rank group measure tie a b) (hbc : Prefers rank group measure tie b c)
    (hca : Prefers rank group measure tie c a) :
    Cycle rank group measure tie a c b ∨ Cycle rank group measure tie b a c ∨
      Cycle rank group measure tie c b a := by
  have hrb : rank b = rank a := le_antisymm (hbc.rank_le.trans hca.rank_le) hab.rank_le
  have hrc : rank c = rank a := le_antisymm hca.rank_le (hab.rank_le.trans hbc.rank_le)
  have hab := hab.of_rank_eq hrb.symm
  have hbc := hbc.of_rank_eq (hrb.trans hrc.symm)
  have hca := hca.of_rank_eq hrc
  by_cases hm₁ : group a b ∧ measure a < measure b
  · exact .inl (cycle_of_measured hsymm htrans hrb hrc hm₁.1 hm₁.2 hbc hca)
  by_cases hm₂ : group b c ∧ measure b < measure c
  · refine .inr (.inl (cycle_of_measured hsymm htrans ?_ hrb.symm hm₂.1 hm₂.2 hca hab))
    rw [hrc, hrb]
  by_cases hm₃ : group c a ∧ measure c < measure a
  · refine .inr (.inr (cycle_of_measured hsymm htrans hrc.symm ?_ hm₃.1 hm₃.2 hab hbc))
    rw [hrc, hrb]
  have ht₁ := (hab.resolve_left hm₁).2
  have ht₂ := (hbc.resolve_left hm₂).2
  have ht₃ := (hca.resolve_left hm₃).2
  exact absurd (ht₁.trans (ht₂.trans ht₃)) (lt_irrefl _)

/-- On a tournament of preferences, transitivity is the absence of such a cycle. -/
theorem transitive_iff (hsymm : ∀ a b, group a b → group b a)
    (htrans : ∀ a b c, group a b → group b c → group a c)
    (ht : Tournament (Prefers rank group measure tie) l) :
    (∀ a ∈ l, ∀ b ∈ l, ∀ c ∈ l, Prefers rank group measure tie a b →
      Prefers rank group measure tie b c → Prefers rank group measure tie a c) ↔
    ¬ ∃ low ∈ l, ∃ mid ∈ l, ∃ high ∈ l, Cycle rank group measure tie low mid high := by
  constructor
  · rintro h ⟨low, hlow, mid, hmid, high, hhigh, hcycle⟩
    have hbc : Prefers rank group measure tie high mid := by
      refine .inr ⟨hcycle.rank_high.trans hcycle.rank_mid.symm, .inr ⟨fun hg => ?_,
        hcycle.high_first⟩⟩
      exact absurd (hsymm _ _ (htrans _ _ _ hcycle.grouped hg)) hcycle.outside
    have hca : Prefers rank group measure tie mid low :=
      .inr ⟨hcycle.rank_mid, .inr ⟨fun hg => absurd hg hcycle.outside, hcycle.mid_first⟩⟩
    have hab : Prefers rank group measure tie low high :=
      .inr ⟨hcycle.rank_high.symm, .inl ⟨hcycle.grouped, hcycle.measured⟩⟩
    exact ht.asymm low hlow high hhigh hab (h high hhigh mid hmid low hlow hbc hca)
  · intro h a ha b hb c hc hab hbc
    by_cases hac : a = c
    · subst hac
      exact absurd hbc (ht.asymm a ha b hb hab)
    · refine (ht.total a ha c hc hac).resolve_right fun hca => h ?_
      rcases cycle_of_prefers hsymm htrans hab hbc hca with hcycle | hcycle | hcycle
      · exact ⟨a, ha, c, hc, b, hb, hcycle⟩
      · exact ⟨b, hb, a, ha, c, hc, hcycle⟩
      · exact ⟨c, hc, b, hb, a, ha, hcycle⟩

end grouped

end Knockout
