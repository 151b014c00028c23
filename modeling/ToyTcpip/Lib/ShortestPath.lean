import Mathlib.Data.Multiset.AddSub
import Mathlib.Tactic

/-! Heaps that give out a greatest element. -/

/-- `BinaryHeap`; which of several greatest elements `pop` takes is left open. -/
class BinaryHeap (H : Type) (α : outParam Type) [Ord α] where
  new : H
  push : H → α → H
  pop : H → Option (α × H)
  items : H → Multiset α
  items_new : items new = 0
  items_push (h : H) (a : α) : items (push h a) = a ::ₘ items h
  items_of_empty {h : H} : pop h = none → items h = 0
  items_of_pop {h rest : H} {a : α} : pop h = some (a, rest) →
    items h = a ::ₘ items rest ∧ ∀ b ∈ items rest, compare b a ≠ .gt

namespace BinaryHeap

variable {H α : Type} [Ord α] [BinaryHeap H α] {h rest : H} {a b : α}

theorem mem_push : b ∈ items (push h a) ↔ b = a ∨ b ∈ items h := by
  rw [items_push, Multiset.mem_cons]

theorem mem_of_pop (hpop : pop h = some (a, rest)) : b ∈ items h ↔ b = a ∨ b ∈ items rest := by
  rw [(items_of_pop hpop).1, Multiset.mem_cons]

theorem card_push : (items (push h a)).card = (items h).card + 1 := by
  rw [items_push, Multiset.card_cons]

theorem card_of_pop (hpop : pop h = some (a, rest)) : (items h).card = (items rest).card + 1 := by
  rw [(items_of_pop hpop).1, Multiset.card_cons]

end BinaryHeap

/-! ### Shortest paths in a graph with costs, and labels that are lowered until they are the
distances. -/
namespace ShortestPath

variable {V : Type*} {edges : V → List (V × ℕ)} {s u v w : V} {c d k m cap : ℕ}
  {label : V → ℕ}

/-- A walk and what it costs. -/
inductive Walk (edges : V → List (V × ℕ)) : V → V → ℕ → Prop
  | refl (u : V) : Walk edges u u 0
  | step {u v w : V} {c k : ℕ} (front : Walk edges u v c) (last : (w, k) ∈ edges v) :
      Walk edges u w (c + k)

/-- The least cost of a walk. -/
def IsDist (edges : V → List (V × ℕ)) (u v : V) (d : ℕ) : Prop :=
  Walk edges u v d ∧ ∀ c, Walk edges u v c → d ≤ c

theorem Walk.trans (h₁ : Walk edges u v c) (h₂ : Walk edges v w d) : Walk edges u w (c + d) := by
  induction h₂ with
  | refl => exact h₁
  | step _ last ih =>
    rw [← Nat.add_assoc]
    exact ih.step last

theorem walk_of_edge (hedge : (v, k) ∈ edges u) : Walk edges u v k := by
  have hone := (Walk.refl u).step hedge
  rwa [Nat.zero_add] at hone

theorem Walk.cons (hedge : (v, k) ∈ edges u) (h : Walk edges v w c) : Walk edges u w (k + c) :=
  (walk_of_edge hedge).trans h

theorem exists_dist (h : Walk edges u v c) : ∃ d ≤ c, IsDist edges u v d := by
  classical
  have hex : ∃ c, Walk edges u v c := ⟨c, h⟩
  exact ⟨Nat.find hex, Nat.find_min' hex h, Nat.find_spec hex, fun _ hc => Nat.find_min' hex hc⟩

theorem IsDist.eq (hd : IsDist edges u v d) (hc : IsDist edges u v c) : d = c :=
  le_antisymm (hd.2 c hc.1) (hc.2 d hd.1)

/-- An edge that costs no more than the others into its end is a shortest path. -/
theorem isDist_of_edge (hne : u ≠ v) (hedge : (v, k) ∈ edges u)
    (hmin : ∀ w j, (v, j) ∈ edges w → k ≤ j) : IsDist edges u v k := by
  refine ⟨walk_of_edge hedge, fun c h => ?_⟩
  cases h with
  | refl => exact absurd rfl hne
  | step _ last =>
    have := hmin _ _ last
    omega

/-! ### Trails -/

/-- A walk with the hops that it takes. -/
inductive Trail (edges : V → List (V × ℕ)) : V → V → List (V × V) → ℕ → Prop
  | refl (u : V) : Trail edges u u [] 0
  | step {u v w : V} {hops : List (V × V)} {c k : ℕ} (front : Trail edges u v hops c)
      (last : (w, k) ∈ edges v) : Trail edges u w (hops ++ [(v, w)]) (c + k)

/-- By the costs, the hop from `v` to `w` is on a shortest walk from `s` to `u`. -/
def OnShortest (edges : V → List (V × ℕ)) (s u v w : V) : Prop :=
  ∃ c k d, IsDist edges s v c ∧ (w, k) ∈ edges v ∧ IsDist edges w u d ∧ IsDist edges s u (c + k + d)

variable {hops hops' : List (V × V)}

theorem Trail.walk (h : Trail edges u v hops c) : Walk edges u v c := by
  induction h with
  | refl => exact .refl _
  | step _ last ih => exact ih.step last

theorem Trail.trans (h₁ : Trail edges u v hops c) (h₂ : Trail edges v w hops' d) :
    Trail edges u w (hops ++ hops') (c + d) := by
  induction h₂ with
  | refl => rwa [List.append_nil]
  | step _ last ih =>
    rw [← List.append_assoc, ← Nat.add_assoc]
    exact ih.step last

theorem Walk.trail (h : Walk edges u v c) : ∃ hops, Trail edges u v hops c := by
  induction h with
  | refl => exact ⟨[], .refl _⟩
  | step _ last ih =>
    obtain ⟨hops, hfront⟩ := ih
    exact ⟨_, hfront.step last⟩

/-- A trail is cut in two at each of its hops. -/
theorem Trail.cut (h : Trail edges s u hops d) (hmem : (v, w) ∈ hops) :
    ∃ c k c', Walk edges s v c ∧ (w, k) ∈ edges v ∧ Walk edges w u c' ∧ d = c + k + c' := by
  induction h with
  | refl => cases hmem
  | @step _ _ _ d j front last ih =>
    rcases List.mem_append.mp hmem with hmem | hmem
    · obtain ⟨c, k, c', hfront, hedge, hback, rfl⟩ := ih hmem
      exact ⟨c, k, c' + j, hfront, hedge, hback.step last, Nat.add_assoc _ _ _⟩
    · cases List.mem_singleton.mp hmem
      exact ⟨d, j, 0, front.walk, last, .refl _, rfl⟩

/-- The hops of the shortest walks are those on which the costs add up to the distance. -/
theorem onShortest_iff : OnShortest edges s u v w ↔
    ∃ hops d, Trail edges s u hops d ∧ IsDist edges s u d ∧ (v, w) ∈ hops := by
  constructor
  · rintro ⟨c, k, d, hfront, hedge, hback, hdist⟩
    obtain ⟨hops, htrail⟩ := hfront.1.trail
    obtain ⟨hops', htrail'⟩ := hback.1.trail
    exact ⟨_, _, (htrail.step hedge).trans htrail', hdist, by simp⟩
  · rintro ⟨hops, _, htrail, hdist, hmem⟩
    obtain ⟨c, k, d, hfront, hedge, hback, rfl⟩ := htrail.cut hmem
    refine ⟨c, k, d, ⟨hfront, fun c' hc' => ?_⟩, hedge, ⟨hback, fun d' hd' => ?_⟩, hdist⟩
    · have := hdist.2 _ ((hc'.step hedge).trans hback)
      omega
    · have := hdist.2 _ ((hfront.step hedge).trans hd')
      omega

/-! ### Labels -/

/-- Labels below `cap` are the costs of walks from `s`. -/
structure Labelled (edges : V → List (V × ℕ)) (s : V) (cap : ℕ) (label : V → ℕ) : Prop where
  source : label s = 0
  walk : ∀ v, label v < cap → Walk edges s v (label v)

/-- No edge out of `u` leads to a label that it could lower. -/
def Relaxed (edges : V → List (V × ℕ)) (label : V → ℕ) (u : V) : Prop :=
  ∀ v k, (v, k) ∈ edges u → label v ≤ label u + k

/-- Where every vertex with a label below `m` is relaxed, walks cheaper than `m` have been found. -/
theorem label_le_of_lt (hlabel : Labelled edges s cap label)
    (hrelaxed : ∀ u, label u < m → Relaxed edges label u) (h : Walk edges s v c) (hc : c < m) :
    label v ≤ c := by
  induction h with
  | refl => exact hlabel.source.le
  | @step v w c k _ last ih =>
    have hle := ih (by omega)
    have := hrelaxed v (by omega) w k last
    omega

/-- The least label that is not relaxed is a distance. -/
theorem isDist_of_least (hlabel : Labelled edges s cap label) (hv : label v < cap)
    (hrelaxed : ∀ u, label u < label v → Relaxed edges label u) : IsDist edges s v (label v) := by
  refine ⟨hlabel.walk v hv, fun c hc => ?_⟩
  by_contra hlt
  have := label_le_of_lt hlabel hrelaxed hc (by omega)
  omega

/-- When all labels below the cap are relaxed, they are the distances. -/
theorem isDist_iff (hlabel : Labelled edges s cap label)
    (hrelaxed : ∀ u, label u < cap → Relaxed edges label u) (hd : d < cap) :
    IsDist edges s v d ↔ label v = d := by
  have hdist : label v < cap → IsDist edges s v (label v) := fun hv =>
    isDist_of_least hlabel hv fun u hu => hrelaxed u (hu.trans hv)
  constructor
  · intro h
    have hle := label_le_of_lt hlabel hrelaxed h.1 hd
    exact (hdist (by omega)).eq h
  · rintro rfl
    exact hdist hd

/-! ### Walks and paths out of a set -/

variable {S : Finset V} {n : ℕ}

/-- A walk of `n` edges that keeps out of `S`. -/
inductive Avoids (edges : V → List (V × ℕ)) (S : Finset V) : V → V → ℕ → ℕ → Prop
  | refl {u : V} (hu : u ∉ S) : Avoids edges S u u 0 0
  | cons {u v w : V} {k n c : ℕ} (hu : u ∉ S) (hedge : (v, k) ∈ edges u)
      (rest : Avoids edges S v w n c) : Avoids edges S u w (n + 1) (k + c)

/-- A walk from `s` to `v` that starts with `h` and does not come back to `s`. -/
def Via (edges : V → List (V × ℕ)) (s h v : V) (c : ℕ) : Prop :=
  ∃ k n c', (h, k) ∈ edges s ∧ Avoids edges {s} h v n c' ∧ c = k + c'

theorem Avoids.snoc (h : Avoids edges S u v n c) (last : (w, k) ∈ edges v) (hw : w ∉ S) :
    Avoids edges S u w (n + 1) (c + k) := by
  induction h with
  | refl hu =>
    rw [Nat.add_comm 0 k]
    exact .cons hu last (.refl hw)
  | cons hu hedge _ ih =>
    rw [Nat.add_assoc _ _ k]
    exact .cons hu hedge (ih last)

theorem Walk.avoids (h : Walk edges u v c) : ∃ n, Avoids edges ∅ u v n c := by
  induction h with
  | refl => exact ⟨0, .refl (by simp)⟩
  | step _ last ih =>
    obtain ⟨n, hn⟩ := ih
    exact ⟨n + 1, hn.snoc last (by simp)⟩

theorem via_of_edge (hedge : (v, k) ∈ edges s) (hv : v ≠ s) : Via edges s v v k :=
  ⟨k, 0, 0, hedge, .refl (by simpa using hv), rfl⟩

theorem Via.step (h : Via edges s u v c) (last : (w, k) ∈ edges v) (hw : w ≠ s) :
    Via edges s u w (c + k) := by
  obtain ⟨k', n, c', hedge, hwalk, rfl⟩ := h
  exact ⟨k', n + 1, c' + k, hedge, hwalk.snoc last (by simpa using hw), Nat.add_assoc _ _ _⟩

section paths

variable [DecidableEq V]

/-- A path that comes to no vertex twice, out of `S`. -/
inductive Path (edges : V → List (V × ℕ)) : Finset V → V → V → ℕ → Prop
  | refl {S : Finset V} {u : V} (hu : u ∉ S) : Path edges S u u 0
  | cons {S : Finset V} {u v w : V} {k c : ℕ} (hu : u ∉ S) (hedge : (v, k) ∈ edges u)
      (rest : Path edges (insert u S) v w c) : Path edges S u w (k + c)

/-- `h` is the first hop of a path from `s` to `v`. -/
def FirstHop (edges : V → List (V × ℕ)) (s h v : V) (c : ℕ) : Prop :=
  ∃ k c', (h, k) ∈ edges s ∧ Path edges {s} h v c' ∧ c = k + c'

theorem Path.start (h : Path edges S u v c) : u ∉ S := by
  cases h with
  | refl hu => exact hu
  | cons hu => exact hu

theorem Path.walk (h : Path edges S u v c) : Walk edges u v c := by
  induction h with
  | refl => exact .refl _
  | cons _ hedge _ ih => exact ih.cons hedge

/-- A walk either does not come to `u`, or goes on from its last visit there. -/
theorem Avoids.last_visit (h : Avoids edges S v w n c) (u : V) :
    Avoids edges (insert u S) v w n c ∨ u = w ∨
      ∃ x k m c', (x, k) ∈ edges u ∧ m ≤ n ∧ k + c' ≤ c ∧ Avoids edges (insert u S) x w m c' := by
  induction h with
  | @refl v hv =>
    by_cases heq : u = v
    · exact .inr (.inl heq)
    · exact .inl (.refl (by simp [hv, Ne.symm heq]))
  | @cons v x w k n c hv hedge _ ih =>
    rcases ih with hrest | heq | ⟨y, j, m, c', hy, hm, hc, hrest⟩
    · by_cases heq : u = v
      · subst heq
        exact .inr (.inr ⟨x, k, n, c, hedge, Nat.le_succ n, le_rfl, hrest⟩)
      · exact .inl (.cons (by simp [hv, Ne.symm heq]) hedge hrest)
    · exact .inr (.inl heq)
    · exact .inr (.inr ⟨y, j, m, c', hy, hm.trans (Nat.le_succ n), by omega, hrest⟩)

/-- Without its rounds, a walk is a path. -/
theorem Avoids.path (h : Avoids edges S u w n c) : ∃ c' ≤ c, Path edges S u w c' := by
  induction n using Nat.strong_induction_on generalizing S u c with
  | h n ih =>
    cases h with
    | refl hu => exact ⟨0, le_rfl, .refl hu⟩
    | @cons _ v _ k n c hu hedge rest =>
      rcases rest.last_visit u with hrest | rfl | ⟨x, j, m, c', hx, hm, hc, hrest⟩
      · obtain ⟨c', hle, hpath⟩ := ih n (Nat.lt_succ_self n) hrest
        exact ⟨k + c', by omega, .cons hu hedge hpath⟩
      · exact ⟨0, Nat.zero_le _, .refl hu⟩
      · obtain ⟨c'', hle, hpath⟩ := ih m (by omega) hrest
        exact ⟨j + c'', by omega, .cons hu hx hpath⟩

/-- Where the walk is a shortest one, its first hop starts a shortest path. -/
theorem Via.firstHop (h : Via edges s u v c) (hd : IsDist edges s v c) :
    FirstHop edges s u v c := by
  obtain ⟨k, n, c', hedge, hwalk, rfl⟩ := h
  obtain ⟨c'', hle, hpath⟩ := hwalk.path
  have := hd.2 (k + c'') (hpath.walk.cons hedge)
  exact ⟨k, c'', hedge, hpath, by omega⟩

/-! ### A bound on distances -/

/-- The cost of all links with both ends out of `S`. -/
def weightOutside (links : List (V × V × ℕ)) (S : Finset V) : ℕ :=
  ((links.filter fun l => l.1 ∉ S ∧ l.2.1 ∉ S).map fun l => l.2.2).sum

/-- Edges are links in one of their directions. -/
def Links (links : List (V × V × ℕ)) (edges : V → List (V × ℕ)) : Prop :=
  ∀ u v k, (v, k) ∈ edges u → (u, v, k) ∈ links ∨ (v, u, k) ∈ links

variable {links : List (V × V × ℕ)}

theorem sum_filter_add_le {α : Type*} {p q : α → Bool} {f : α → ℕ} {l : List α} {a : α}
    (hsub : ∀ a ∈ l, q a = true → p a = true) (ha : a ∈ l) (hp : p a = true) (hq : q a = false) :
    ((l.filter q).map f).sum + f a ≤ ((l.filter p).map f).sum := by
  have hle : ∀ l' : List α, (∀ a ∈ l', q a = true → p a = true) →
      ((l'.filter q).map f).sum ≤ ((l'.filter p).map f).sum := by
    intro l' hl'
    have hfilter : l'.filter q = (l'.filter p).filter q := by
      rw [List.filter_filter]
      refine List.filter_congr fun x hx => ?_
      by_cases hqx : q x = true
      · simp [hqx, hl' x hx hqx]
      · simp [hqx]
    rw [hfilter]
    exact ((List.filter_sublist).map f).sum_le_sum (by simp)
  induction l with
  | nil => cases ha
  | cons b l ih =>
    have hrest := fun x hx => hsub x (List.mem_cons_of_mem b hx)
    rcases List.mem_cons.mp ha with rfl | ha
    · have := hle l hrest
      simp only [List.filter_cons, hp, hq, if_true, Bool.false_eq_true, if_false, List.map_cons,
        List.sum_cons]
      omega
    · have := ih hrest ha
      have hb := hsub b List.mem_cons_self
      cases hqb : q b with
      | false =>
        simp only [List.filter_cons, hqb, Bool.false_eq_true, if_false]
        split_ifs
        · rw [List.map_cons, List.sum_cons]
          omega
        · exact this
      | true =>
        simp only [List.filter_cons, hqb, hb hqb, if_true, List.map_cons, List.sum_cons]
        omega

/-- A path costs no more than the links it can use. -/
theorem Path.le_weight (h : Path edges S u v c) (hlinks : Links links edges) :
    c ≤ weightOutside links S := by
  induction h with
  | refl => exact Nat.zero_le _
  | @cons S u v w k c hu hedge rest ih =>
    have hv := rest.start
    rw [Finset.mem_insert, not_or] at hv
    have hstep : weightOutside links (insert u S) + k ≤ weightOutside links S := by
      have hsub : ∀ l ∈ links, decide (l.1 ∉ insert u S ∧ l.2.1 ∉ insert u S) = true →
          decide (l.1 ∉ S ∧ l.2.1 ∉ S) = true := by
        intro l _
        simp only [Finset.mem_insert, not_or, decide_eq_true_eq]
        rintro ⟨⟨-, h₁⟩, -, h₂⟩
        exact ⟨h₁, h₂⟩
      rcases hlinks u v k hedge with hmem | hmem
      · exact sum_filter_add_le (f := fun l => l.2.2) hsub hmem (by simp [hu, hv.2]) (by simp)
      · exact sum_filter_add_le (f := fun l => l.2.2) hsub hmem (by simp [hu, hv.2]) (by simp)
    omega

/-- No distance is greater than the cost of all links together. -/
theorem IsDist.le_sum (h : IsDist edges u v d) (hlinks : Links links edges) :
    d ≤ (links.map fun l => l.2.2).sum := by
  obtain ⟨n, hn⟩ := h.1.avoids
  obtain ⟨c, -, hpath⟩ := hn.path
  have hle := hpath.le_weight hlinks
  have hd := h.2 c hpath.walk
  have hall : weightOutside links ∅ = (links.map fun l => l.2.2).sum := by
    rw [weightOutside, List.filter_eq_self.mpr (by simp)]
  omega

end paths

end ShortestPath
