import Mathlib.Combinatorics.SimpleGraph.Metric
import Mathlib.Tactic

/-! Distance-vector networks: every node keeps a cost for each destination and the neighbour it
adopted it from. Nodes hear of costs late, repeatedly or never. -/
namespace DistanceVector

variable {N P : Type*}

structure State (N P : Type*) where
  cost : N → P → Option ℕ
  via : N → P → Option N

namespace State

/-- `u` has had a cost of `k`: it may only have become smaller. -/
def Told (s : State N P) (u : N) (p : P) (k : ℕ) : Prop := ∃ m ≤ k, s.cost u p = some m

def Improves (s : State N P) (v : N) (p : P) (k : ℕ) : Prop := ∀ m, s.cost v p = some m → k < m

/-- `v` adopts the cost `k` of its neighbour `u`. -/
def adopt [DecidableEq N] [DecidableEq P] (s : State N P) (v : N) (p : P) (u : N) (k : ℕ) :
    State N P where
  cost w q := if w = v ∧ q = p then some (k + 1) else s.cost w q
  via w q := if w = v ∧ q = p then some u else s.via w q

/-- One hop towards `p`. -/
def Hop (s : State N P) (p : P) (v u : N) : Prop := s.via v p = some u

end State

/-- Costs are no smaller than the distances plus one, and shrink along the adopted neighbours. -/
structure Sound (G : SimpleGraph N) (home : N → P → Prop) (s : State N P) : Prop where
  far : ∀ v p m, s.cost v p = some m → ∃ w, home w p ∧ G.edist v w + 1 ≤ m
  atHome : ∀ v p m, s.cost v p = some m → s.via v p = none → home v p
  parent : ∀ v p u, s.via v p = some u →
    G.Adj u v ∧ ∃ m m', s.cost v p = some m ∧ s.cost u p = some m' ∧ m' < m

variable {G : SimpleGraph N} {home : N → P → Prop} {s : State N P} {u v w : N} {p q : P} {k m : ℕ}

section adopt

variable [DecidableEq N] [DecidableEq P]

@[simp] theorem cost_adopt : (s.adopt v p u k).cost w q =
    if w = v ∧ q = p then some (k + 1) else s.cost w q := rfl

@[simp] theorem via_adopt : (s.adopt v p u k).via w q =
    if w = v ∧ q = p then some u else s.via w q := rfl

/-- An adoption only makes costs smaller. -/
theorem told_adopt {j : ℕ} (hbetter : s.Improves v p (k + 1)) (h : s.Told w q j) :
    (s.adopt v p u k).Told w q j := by
  obtain ⟨m, hle, hcost⟩ := h
  by_cases hat : w = v ∧ q = p
  · obtain ⟨rfl, rfl⟩ := hat
    have hlt := hbetter m hcost
    exact ⟨k + 1, by omega, by simp⟩
  · exact ⟨m, hle, by simp [hat, hcost]⟩

theorem Sound.adopt (h : Sound G home s) (hadj : G.Adj u v) (htold : s.Told u p k)
    (hbetter : s.Improves v p (k + 1)) : Sound G home (s.adopt v p u k) := by
  obtain ⟨k', hk', hu⟩ := htold
  have hne : u ≠ v := hadj.ne
  refine ⟨?_, ?_, ?_⟩
  · intro w q m hm
    rw [cost_adopt] at hm
    split_ifs at hm with hat
    · obtain ⟨rfl, rfl⟩ := hat
      obtain rfl := Option.some.inj hm
      obtain ⟨x, hx, hdist⟩ := h.far u q k' hu
      refine ⟨x, hx, ?_⟩
      have hstep : G.edist w u = 1 := SimpleGraph.edist_eq_one_iff_adj.mpr hadj.symm
      calc G.edist w x + 1 ≤ (G.edist w u + G.edist u x) + 1 := by
            gcongr
            exact SimpleGraph.edist_triangle
        _ = (G.edist u x + 1) + 1 := by rw [hstep, add_comm 1]
        _ ≤ (k' : ℕ∞) + 1 := by gcongr
        _ ≤ ((k + 1 : ℕ) : ℕ∞) := by
            push_cast
            gcongr
    · exact h.far w q m hm
  · intro w q m hm hvia
    rw [cost_adopt] at hm
    rw [via_adopt] at hvia
    split_ifs at hm hvia with hat
    exact h.atHome w q m hm hvia
  · intro w q x hx
    rw [via_adopt] at hx
    split_ifs at hx with hat
    · obtain ⟨rfl, rfl⟩ := hat
      obtain rfl := Option.some.inj hx
      exact ⟨hadj, k + 1, k', by simp, by simp [hne, hu], by omega⟩
    · obtain ⟨hwx, m, m', hm, hm', hlt⟩ := h.parent w q x hx
      by_cases hxv : x = v ∧ q = p
      · obtain ⟨rfl, rfl⟩ := hxv
        have := hbetter m' hm'
        exact ⟨hwx, m, k + 1, by rw [cost_adopt, if_neg hat, hm], by simp, by omega⟩
      · exact ⟨hwx, m, m', by simp [hat, hm], by simp [hxv, hm'], hlt⟩

end adopt

/-! ### Following the adopted neighbours -/

/-- A relation whose steps lower a measure has no cycles. -/
theorem no_cycle {α : Type*} [Preorder α] {r : N → N → Prop} {f : N → α}
    (h : ∀ v u, r v u → f u < f v) : ¬ Relation.TransGen r v v := by
  intro hcycle
  have hlt : ∀ {u}, Relation.TransGen r v u → f u < f v := by
    intro u hu
    induction hu with
    | single hstep => exact h _ _ hstep
    | tail _ hstep ih => exact (h _ _ hstep).trans ih
  exact lt_irrefl _ (hlt hcycle)

theorem Sound.no_loop (h : Sound G home s) (v : N) (p : P) :
    ¬ Relation.TransGen (s.Hop p) v v := by
  refine no_cycle (f := fun w => (s.cost w p).getD 0) ?_
  intro w x hwx
  obtain ⟨-, m, m', hm, hm', hlt⟩ := h.parent w p x hwx
  simpa [hm, hm'] using hlt

theorem Sound.reaches (h : Sound G home s) (hm : s.cost v p = some m) :
    ∃ w, Relation.ReflTransGen (s.Hop p) v w ∧ home w p := by
  induction m using Nat.strong_induction_on generalizing v with
  | _ m ih =>
    cases hvia : s.via v p with
    | none => exact ⟨v, .refl, h.atHome v p m hm hvia⟩
    | some u =>
      obtain ⟨-, m₁, m', hm₁, hm', hlt⟩ := h.parent v p u hvia
      obtain rfl := Option.some.inj (hm.symm.trans hm₁)
      obtain ⟨w, hpath, hw⟩ := ih m' hlt hm'
      exact ⟨w, hpath.head hvia, hw⟩

end DistanceVector
