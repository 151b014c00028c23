import ToyTcpip.Lib.Checked
import ToyTcpip.Lib.Hashed
import ToyTcpip.Lib.ShortestPath
import ToyTcpip.Routing.Table

/-! The link state database and the shortest path tree of `ospf.rs`. -/
namespace ToyTcpip.Ospf

open Hashed ShortestPath

def u32Max : ℕ := 2 ^ 32 - 1

structure SpfNode where
  cost : ℕ
  router : Ipv4Address
  deriving DecidableEq

/-- The cheapest node is the greatest. -/
instance : Ord SpfNode := ⟨fun self other => compare other.cost self.cost⟩

theorem compare_ne_gt {a b : SpfNode} : compare b a ≠ .gt ↔ a.cost ≤ b.cost := by
  change compare a.cost b.cost ≠ .gt ↔ _
  rw [ne_eq, Nat.compare_eq_gt, not_lt]

/-! ### Database -/

abbrev Adjacencies : Type := HashMap Ipv4Address (List (Ipv4Address × ℕ))

def neighbors (adjacencies : Adjacencies) (router : Ipv4Address) : List (Ipv4Address × ℕ) :=
  (adjacencies.lookup router).getD []

/-- `adjacencies.entry(router).or_default().push(link)`. -/
def pushLink (adjacencies : Adjacencies) (router : Ipv4Address) (link : Ipv4Address × ℕ) :
    Adjacencies :=
  adjacencies.insert router (neighbors adjacencies router ++ [link])

variable {adjacencies : Adjacencies} {router r₁ r₂ u v src : Ipv4Address} {link l : Ipv4Address × ℕ}
  {cost c d k : ℕ}

theorem mem_neighbors_pushLink :
    l ∈ neighbors (pushLink adjacencies router link) u ↔
      l ∈ neighbors adjacencies u ∨ u = router ∧ l = link := by
  rw [neighbors, pushLink, lookup_insert_of]
  by_cases h : u = router
  · simp [h]
  · simp [h, neighbors]

/-- The link state database; each neighbour has its own adjacencies. -/
structure OspfLsdb where
  adjacencies : Adjacencies
  closed : ∀ u, ∀ l ∈ neighbors adjacencies u, l.1 ∈ adjacencies

namespace OspfLsdb

variable {lsdb : OspfLsdb}

def empty : OspfLsdb where
  adjacencies := ∅
  closed := by simp [neighbors]

def edges (lsdb : OspfLsdb) : Ipv4Address → List (Ipv4Address × ℕ) := neighbors lsdb.adjacencies

def addLink (lsdb : OspfLsdb) (r₁ r₂ : Ipv4Address) (cost : ℕ) : OspfLsdb where
  adjacencies := pushLink (pushLink lsdb.adjacencies r₁ (r₂, cost)) r₂ (r₁, cost)
  closed := by
    intro u l hl
    rw [mem_neighbors_pushLink, mem_neighbors_pushLink] at hl
    simp only [pushLink, AList.mem_insert]
    rcases hl with (hl | ⟨-, rfl⟩) | ⟨-, rfl⟩
    · exact .inr (.inr (lsdb.closed u l hl))
    · exact .inl rfl
    · exact .inr (.inl rfl)

/-- The calls of `add_link`, one after the other. -/
def addLinks (lsdb : OspfLsdb) (links : List (Ipv4Address × Ipv4Address × ℕ)) : OspfLsdb :=
  links.foldl (fun lsdb l => lsdb.addLink l.1 l.2.1 l.2.2) lsdb

/-- Three routers, of which the first and the third have an expensive link. -/
def triangle : List (Ipv4Address × Ipv4Address × ℕ) :=
  [(⟨1, 1, 1, 1⟩, ⟨2, 2, 2, 2⟩, 10), (⟨2, 2, 2, 2⟩, ⟨3, 3, 3, 3⟩, 10),
    (⟨1, 1, 1, 1⟩, ⟨3, 3, 3, 3⟩, 50)]

def new : OspfLsdb := empty.addLinks triangle

theorem mem_edges_addLink :
    l ∈ (lsdb.addLink r₁ r₂ cost).edges u ↔
      l ∈ lsdb.edges u ∨ u = r₁ ∧ l = (r₂, cost) ∨ u = r₂ ∧ l = (r₁, cost) := by
  rw [edges, addLink, mem_neighbors_pushLink, mem_neighbors_pushLink, or_assoc]
  rfl

theorem links_addLinks {links more : List (Ipv4Address × Ipv4Address × ℕ)}
    (h : Links links lsdb.edges) : Links (links ++ more) (lsdb.addLinks more).edges := by
  induction more generalizing lsdb links with
  | nil => simpa [addLinks] using h
  | cons l more ih =>
    have hone : Links (links ++ [l]) (lsdb.addLink l.1 l.2.1 l.2.2).edges := by
      intro u v k hedge
      rw [mem_edges_addLink] at hedge
      rcases hedge with hold | ⟨rfl, heq⟩ | ⟨rfl, heq⟩
      · rcases h u v k hold with hmem | hmem
        · exact .inl (List.mem_append_left _ hmem)
        · exact .inr (List.mem_append_left _ hmem)
      · cases heq
        exact .inl (by simp)
      · cases heq
        exact .inr (by simp)
    rw [List.append_cons]
    exact ih hone

/-- The links of a database are the first three and those added since. -/
theorem links_new (links : List (Ipv4Address × Ipv4Address × ℕ)) :
    Links (triangle ++ links) (new.addLinks links).edges := by
  have hempty : Links [] empty.edges := by
    intro u v k hedge
    simp [empty, edges, neighbors] at hedge
  exact links_addLinks (links_addLinks hempty)

end OspfLsdb

/-! ### Shortest paths first -/

structure SpfState (H : Type) where
  dist : HashMap Ipv4Address ℕ
  nextHop : HashMap Ipv4Address (Option Ipv4Address)
  heap : H

namespace SpfState

variable {H : Type} [BinaryHeap H SpfNode]

/-- `*dist.get(&router).unwrap_or(&u32::MAX)`. -/
def distOf (st : SpfState H) (router : Ipv4Address) : ℕ := (st.dist.lookup router).getD u32Max

/-- `next_hop.get(&router).cloned().flatten()`. -/
def nextHopOf (st : SpfState H) (router : Ipv4Address) : Option Ipv4Address :=
  (st.nextHop.lookup router).join

def improve (src : Ipv4Address) (node : SpfNode) (st : SpfState H) (next : Ipv4Address)
    (nextCost : ℕ) : SpfState H where
  dist := st.dist.insert next nextCost
  nextHop := st.nextHop.insert next (if node.router = src then
    some next else st.nextHopOf node.router)
  heap := BinaryHeap.push st.heap ⟨nextCost, next⟩

/-- One link of the node; the sum of two `u32` panics on overflow. -/
def relax (src : Ipv4Address) (node : SpfNode) (st : SpfState H) (link : Ipv4Address × ℕ) :
    Checked Empty (SpfState H) :=
  if node.cost + link.2 < 2 ^ 32 then
    .ok (if node.cost + link.2 < st.distOf link.1 then
      st.improve src node link.1 (node.cost + link.2) else st)
  else .panic

def relaxAll (src : Ipv4Address) (node : SpfNode) (st : SpfState H)
    (links : List (Ipv4Address × ℕ)) : Checked Empty (SpfState H) :=
  links.foldlM (relax src node) st

/-- Twice the labels of all routers, and the nodes that wait in the heap. -/
def potential (lsdb : OspfLsdb) (st : SpfState H) : ℕ :=
  2 * ∑ v ∈ lsdb.adjacencies.keys.toFinset, st.distOf v + (BinaryHeap.items st.heap).card

variable {lsdb : OspfLsdb} {node : SpfNode} {st st' : SpfState H} {links : List (Ipv4Address × ℕ)}
  {rest : H}

@[simp] theorem distOf_improve (next : Ipv4Address) :
    (st.improve src node next c).distOf v = if v = next then c else st.distOf v := by
  unfold distOf improve
  rw [lookup_insert_of]
  split <;> rfl

theorem nextHopOf_improve (next : Ipv4Address) :
    (st.improve src node next c).nextHopOf v =
      if v = next then (if node.router = src then some next else st.nextHopOf node.router)
      else st.nextHopOf v := by
  unfold nextHopOf improve
  rw [lookup_insert_of]
  split <;> rfl

/-- A link is passed over, or its end is lowered to the sum. -/
theorem relax_eq_ok (h : st.relax src node link = .ok st') :
    node.cost + link.2 < 2 ^ 32 ∧
      (st.distOf link.1 ≤ node.cost + link.2 ∧ st' = st ∨
        node.cost + link.2 < st.distOf link.1 ∧
          st' = st.improve src node link.1 (node.cost + link.2)) := by
  unfold relax at h
  split_ifs at h with hfits hlower
  · cases h
    exact ⟨hfits, .inr ⟨hlower, rfl⟩⟩
  · cases h
    exact ⟨hfits, .inl ⟨not_lt.mp hlower, rfl⟩⟩

theorem relaxAll_cons_eq_ok :
    st.relaxAll src node (link :: links) = .ok st' ↔
      ∃ mid, st.relax src node link = .ok mid ∧ mid.relaxAll src node links = .ok st' := by
  rw [relaxAll, List.foldlM_cons]
  exact Checked.bind_eq_ok

theorem potential_improve (hmem : u ∈ lsdb.adjacencies) (hlower : c < st.distOf u) :
    (st.improve src node u c).potential lsdb < st.potential lsdb := by
  have hsum : ∑ v ∈ lsdb.adjacencies.keys.toFinset, (st.improve src node u c).distOf v <
      ∑ v ∈ lsdb.adjacencies.keys.toFinset, st.distOf v := by
    refine Finset.sum_lt_sum (fun v _ => ?_) ⟨u, List.mem_toFinset.mpr (AList.mem_keys.mp hmem), ?_⟩
    · rw [distOf_improve]
      split
      · subst v
        exact hlower.le
      · exact le_rfl
    · rwa [distOf_improve, if_pos rfl]
  have hcard := @BinaryHeap.card_push H SpfNode _ _ st.heap ⟨c, u⟩
  unfold potential
  change _ + (BinaryHeap.items (BinaryHeap.push st.heap _)).card < _
  omega

theorem potential_relaxAll (hclosed : ∀ l ∈ links, l.1 ∈ lsdb.adjacencies)
    (h : st.relaxAll src node links = .ok st') : st'.potential lsdb ≤ st.potential lsdb := by
  induction links generalizing st with
  | nil =>
    cases h
    exact le_rfl
  | cons l links ih =>
    obtain ⟨mid, hmid, hrest⟩ := relaxAll_cons_eq_ok.mp h
    refine (ih (fun l hl => hclosed l (List.mem_cons_of_mem _ hl)) hrest).trans ?_
    rcases (relax_eq_ok hmid).2 with ⟨-, rfl⟩ | ⟨hlower, rfl⟩
    · exact le_rfl
    · exact (potential_improve (hclosed l List.mem_cons_self) hlower).le

theorem potential_pop (hpop : BinaryHeap.pop st.heap = some (node, rest)) :
    ({ st with heap := rest } : SpfState H).potential lsdb < st.potential lsdb := by
  have hcard := BinaryHeap.card_of_pop hpop
  unfold potential distOf
  dsimp only
  omega

/-- The loop of `compute_shortest_paths`. -/
def spf (lsdb : OspfLsdb) (src : Ipv4Address) (st : SpfState H) : Checked Empty (SpfState H) :=
  match _ : BinaryHeap.pop st.heap with
  | none => .ok st
  | some (node, heap) =>
    if st.distOf node.router < node.cost then spf lsdb src { st with heap }
    else match _ : relaxAll src node { st with heap } (lsdb.edges node.router) with
      | .ok st' => spf lsdb src st'
      | .error e => .error e
      | .panic => .panic
  termination_by st.potential lsdb
  decreasing_by
    · exact potential_pop ‹_›
    · exact (potential_relaxAll (lsdb.closed node.router) ‹_›).trans_lt (potential_pop ‹_›)

theorem spf_of_empty (hpop : BinaryHeap.pop st.heap = none) : st.spf lsdb src = .ok st := by
  rw [spf]
  split
  · rfl
  · simp_all

theorem spf_of_stale (hpop : BinaryHeap.pop st.heap = some (node, rest))
    (hstale : st.distOf node.router < node.cost) :
    st.spf lsdb src = spf lsdb src { st with heap := rest } := by
  rw [spf]
  split
  · simp_all
  · simp_all

theorem spf_of_fresh (hpop : BinaryHeap.pop st.heap = some (node, rest))
    (hfresh : node.cost ≤ st.distOf node.router) :
    st.spf lsdb src =
      (relaxAll src node { st with heap := rest } (lsdb.edges node.router)).bind
        (spf lsdb src) := by
  rw [spf]
  split
  · simp_all
  · rename_i node' rest' hpop'
    rw [hpop] at hpop'
    cases hpop'
    rw [if_neg (not_lt.mpr hfresh)]
    split <;> rename_i hall <;> rw [hall] <;> rfl

def start (src : Ipv4Address) : SpfState H where
  dist := (∅ : HashMap Ipv4Address ℕ).insert src 0
  nextHop := ∅
  heap := BinaryHeap.push BinaryHeap.new ⟨0, src⟩

def results [HashOrder] (src : Ipv4Address) (st : SpfState H) :
    HashMap Ipv4Address (ℕ × Option Ipv4Address) :=
  collect (fun rtr => rtr ≠ src) (fun rtr c => (c, st.nextHopOf rtr)) st.dist

end SpfState

/-- `compute_shortest_paths`, with the heap `H`. -/
def OspfLsdb.computeShortestPaths (H : Type) [BinaryHeap H SpfNode] [HashOrder] (lsdb : OspfLsdb)
    (src : Ipv4Address) : Checked Empty (HashMap Ipv4Address (ℕ × Option Ipv4Address)) :=
  ((SpfState.start src : SpfState H).spf lsdb src).bind fun st => .ok (st.results src)

/-! ### The tree of shortest paths -/

variable {H : Type} [BinaryHeap H SpfNode] {lsdb : OspfLsdb} {node : SpfNode}
  {links : List (Ipv4Address × ℕ)}

namespace SpfState

variable {st st' : SpfState H} {rest : H} {busy : Set Ipv4Address}

/-- The links of `u` can be added to its label and lower no other one. -/
def Settled (lsdb : OspfLsdb) (st : SpfState H) (u : Ipv4Address) : Prop :=
  ∀ v k, (v, k) ∈ lsdb.edges u → st.distOf u + k < 2 ^ 32 ∧ st.distOf v ≤ st.distOf u + k

/-- Labels are the costs of walks, with their first hops; all routers with a label are settled, wait
in the heap, or are `busy`. -/
structure Frontier (lsdb : OspfLsdb) (src : Ipv4Address) (busy : Set Ipv4Address)
    (st : SpfState H) : Prop where
  labelled : Labelled lsdb.edges src u32Max st.distOf
  bounded : ∀ v c, st.dist.lookup v = some c → c < u32Max
  hop : ∀ v, v ≠ src → st.distOf v < u32Max →
    ∃ h, st.nextHopOf v = some h ∧ Via lsdb.edges src h v (st.distOf v)
  waiting : ∀ u, u ∉ busy → st.distOf u < u32Max →
    Settled lsdb st u ∨ ⟨st.distOf u, u⟩ ∈ BinaryHeap.items st.heap
  above : ∀ n ∈ BinaryHeap.items st.heap, st.distOf n.router ≤ n.cost ∧ n.cost < u32Max

theorem Frontier.distOf_le (hst : Frontier lsdb src busy st) (v : Ipv4Address) :
    st.distOf v ≤ u32Max := by
  unfold distOf
  cases hv : st.dist.lookup v with
  | none => exact le_rfl
  | some c => exact (hst.bounded v c hv).le

theorem frontier_start : Frontier lsdb src ∅ (start src : SpfState H) := by
  have hdist : ∀ v, (start src : SpfState H).distOf v = if v = src then 0 else u32Max := by
    intro v
    unfold distOf start
    rw [lookup_insert_of]
    split <;> rfl
  have hsrc : (start src : SpfState H).distOf src = 0 := by rw [hdist, if_pos rfl]
  have hitems : ∀ n, n ∈ BinaryHeap.items (start src : SpfState H).heap ↔ n = ⟨0, src⟩ := by
    intro n
    unfold start
    rw [BinaryHeap.mem_push, BinaryHeap.items_new]
    simp
  have honly : ∀ v, (start src : SpfState H).distOf v < u32Max → v = src := by
    intro v hv
    by_contra hne
    rw [hdist, if_neg hne] at hv
    exact lt_irrefl _ hv
  refine ⟨⟨hsrc, fun v hv => ?_⟩, fun v c hv => ?_, fun v hne hv => absurd (honly v hv) hne,
    fun u _ hu => ?_, fun n hn => ?_⟩
  · rw [honly v hv, hsrc]
    exact .refl src
  · unfold start at hv
    rw [lookup_insert_of] at hv
    split_ifs at hv
    · cases hv
      decide
    · simp at hv
  · rw [honly u hu, hsrc]
    exact .inr ((hitems _).mpr rfl)
  · rw [(hitems n).mp hn, hsrc]
    exact ⟨le_rfl, (by decide : 0 < u32Max)⟩

/-- A label that is lowered along a link is again the cost of a walk, and its router waits. -/
theorem Frontier.improve (hst : Frontier lsdb src {node.router} st)
    (hcost : st.distOf node.router = node.cost) (hlink : (v, k) ∈ lsdb.edges node.router)
    (hlower : node.cost + k < st.distOf v) :
    Frontier lsdb src {node.router} (st.improve src node v (node.cost + k)) := by
  have hle := hst.distOf_le v
  have hvsrc : v ≠ src := by
    rintro rfl
    rw [hst.labelled.source] at hlower
    exact absurd hlower (Nat.not_lt_zero _)
  have hmono : ∀ w, (st.improve src node v (node.cost + k)).distOf w ≤ st.distOf w := by
    intro w
    rw [distOf_improve]
    split
    · subst w
      exact hlower.le
    · exact le_rfl
  refine ⟨⟨?_, fun w hw => ?_⟩, fun w c hw => ?_, fun w hne hw => ?_, fun w hne hw => ?_,
    fun n hn => ?_⟩
  · rw [distOf_improve, if_neg hvsrc.symm, hst.labelled.source]
  · rw [distOf_improve] at hw ⊢
    split_ifs at hw ⊢ with heq
    · subst w
      have hwalk := hst.labelled.walk node.router (by omega)
      rw [hcost] at hwalk
      exact hwalk.step hlink
    · exact hst.labelled.walk w hw
  · unfold SpfState.improve at hw
    rw [lookup_insert_of] at hw
    split_ifs at hw
    · cases hw
      omega
    · exact hst.bounded w c hw
  · rw [distOf_improve] at hw ⊢
    rw [nextHopOf_improve]
    split_ifs at hw ⊢ with heq hsrc
    · subst w
      rw [hsrc] at hlink hcost
      rw [hst.labelled.source] at hcost
      rw [← hcost, Nat.zero_add]
      exact ⟨v, rfl, via_of_edge hlink hne⟩
    · subst w
      obtain ⟨h, hhop, hvia⟩ := hst.hop node.router hsrc (by omega)
      rw [hcost] at hvia
      exact ⟨h, hhop, hvia.step hlink hne⟩
    · exact hst.hop w hne hw
  · by_cases heq : w = v
    · subst w
      rw [distOf_improve, if_pos rfl]
      exact .inr (BinaryHeap.mem_push.mpr (.inl rfl))
    · have hsame : (st.improve src node v (node.cost + k)).distOf w = st.distOf w := by
        rw [distOf_improve, if_neg heq]
      rw [hsame] at hw ⊢
      rcases hst.waiting w hne hw with hsettled | hmem
      · refine .inl fun x j hx => ?_
        have hx' := hsettled x j hx
        rw [hsame]
        exact ⟨hx'.1, (hmono x).trans hx'.2⟩
      · exact .inr (BinaryHeap.mem_push.mpr (.inr hmem))
  · rcases BinaryHeap.mem_push.mp hn with rfl | hn
    · simp only [distOf_improve, if_true]
      omega
    · have hn' := hst.above n hn
      exact ⟨(hmono _).trans hn'.1, hn'.2⟩

/-- After its links the node at the front can lower no label. -/
theorem Frontier.relaxAll (hst : Frontier lsdb src {node.router} st)
    (hcost : st.distOf node.router = node.cost) (hlinks : ∀ l ∈ links, l ∈ lsdb.edges node.router)
    (h : st.relaxAll src node links = .ok st') :
    Frontier lsdb src {node.router} st' ∧ st'.distOf node.router = node.cost ∧
      (∀ v, st'.distOf v ≤ st.distOf v) ∧
      ∀ l ∈ links, node.cost + l.2 < 2 ^ 32 ∧ st'.distOf l.1 ≤ node.cost + l.2 := by
  induction links generalizing st with
  | nil =>
    cases h
    exact ⟨hst, hcost, fun _ => le_rfl, by simp⟩
  | cons l links ih =>
    obtain ⟨mid, hmid, hrest⟩ := relaxAll_cons_eq_ok.mp h
    have hlinks' := fun l hl => hlinks l (List.mem_cons_of_mem _ hl)
    obtain ⟨hfits, ⟨hle, rfl⟩ | ⟨hlower, rfl⟩⟩ := relax_eq_ok hmid
    · obtain ⟨hst', hcost', hmono, hall⟩ := ih hst hcost hlinks' hrest
      exact ⟨hst', hcost', hmono, List.forall_mem_cons.mpr ⟨⟨hfits, (hmono _).trans hle⟩, hall⟩⟩
    · have hne : node.router ≠ l.1 := by
        intro heq
        rw [← heq, hcost] at hlower
        omega
      have hcost' : (st.improve src node l.1 (node.cost + l.2)).distOf node.router = node.cost := by
        rw [distOf_improve, if_neg hne, hcost]
      obtain ⟨hst', hcost'', hmono, hall⟩ :=
        ih (hst.improve hcost (hlinks l List.mem_cons_self) hlower) hcost' hlinks' hrest
      refine ⟨hst', hcost'', fun v => (hmono v).trans ?_,
        List.forall_mem_cons.mpr ⟨⟨hfits, (hmono _).trans ?_⟩, hall⟩⟩
      · rw [distOf_improve]
        split
        · subst v
          exact hlower.le
        · exact le_rfl
      · rw [distOf_improve, if_pos rfl]

/-- A node that costs more than the label of its router is dropped. -/
theorem Frontier.stale (hst : Frontier lsdb src ∅ st)
    (hpop : BinaryHeap.pop st.heap = some (node, rest))
    (hstale : st.distOf node.router < node.cost) :
    Frontier lsdb src ∅ { st with heap := rest } where
  labelled := hst.labelled
  bounded := hst.bounded
  hop := hst.hop
  waiting u hu hlt := by
    refine (hst.waiting u hu hlt).imp_right fun hmem => ?_
    rcases (BinaryHeap.mem_of_pop hpop).mp hmem with heq | hmem
    · rw [← heq] at hstale
      exact absurd hstale (lt_irrefl _)
    · exact hmem
  above n hn := hst.above n ((BinaryHeap.mem_of_pop hpop).mpr (.inr hn))

/-- The node that comes out of the heap has the distance of its router. -/
theorem Frontier.fresh (hst : Frontier lsdb src ∅ st)
    (hpop : BinaryHeap.pop st.heap = some (node, rest))
    (hfresh : node.cost ≤ st.distOf node.router) :
    st.distOf node.router = node.cost ∧ IsDist lsdb.edges src node.router node.cost ∧
      Frontier lsdb src {node.router} { st with heap := rest } := by
  obtain ⟨habove, hlt⟩ := hst.above node ((BinaryHeap.mem_of_pop hpop).mpr (.inl rfl))
  have hcost := le_antisymm habove hfresh
  refine ⟨hcost, ?_, hst.labelled, hst.bounded, hst.hop, fun u hu hu' => ?_, fun n hn => ?_⟩
  · rw [← hcost]
    refine isDist_of_least hst.labelled (by omega) fun u hu => ?_
    rcases hst.waiting u (by simp) (by omega) with hsettled | hmem
    · exact fun v k hv => (hsettled v k hv).2
    · -- a cheaper node would have come out first
      rcases (BinaryHeap.mem_of_pop hpop).mp hmem with heq | hmem
      · rw [← heq] at hu
        exact absurd hu (lt_irrefl _)
      · have := compare_ne_gt.mp ((BinaryHeap.items_of_pop hpop).2 _ hmem)
        dsimp only at this
        omega
  · refine (hst.waiting u (by simp) hu').imp_right fun hmem => ?_
    rcases (BinaryHeap.mem_of_pop hpop).mp hmem with heq | hmem
    · rw [← heq] at hu
      exact absurd rfl hu
    · exact hmem
  · exact hst.above n ((BinaryHeap.mem_of_pop hpop).mpr (.inr hn))

/-- One node of the heap is dealt with. -/
theorem Frontier.next (hst : Frontier lsdb src ∅ st)
    (hpop : BinaryHeap.pop st.heap = some (node, rest)) (hfresh : node.cost ≤ st.distOf node.router)
    (h : SpfState.relaxAll src node { st with heap := rest } (lsdb.edges node.router) = .ok st') :
    Frontier lsdb src ∅ st' := by
  obtain ⟨hcost, -, hbusy⟩ := hst.fresh hpop hfresh
  obtain ⟨hst', hcost', -, hall⟩ := hbusy.relaxAll hcost (fun _ => id) h
  refine ⟨hst'.labelled, hst'.bounded, hst'.hop, fun u _ hu => ?_, hst'.above⟩
  by_cases heq : u = node.router
  · subst heq
    rw [Settled, hcost']
    exact .inl fun v k hv => hall (v, k) hv
  · exact hst'.waiting u heq hu

/-! ### The whole loop -/

theorem Frontier.spf (hst : Frontier lsdb src ∅ st) (h : st.spf lsdb src = .ok st') :
    Frontier lsdb src ∅ st' ∧ BinaryHeap.items st'.heap = 0 := by
  induction hn : st.potential lsdb using Nat.strong_induction_on generalizing st with
  | h n ih =>
    subst hn
    cases hpop : BinaryHeap.pop st.heap with
    | none =>
      rw [spf_of_empty hpop] at h
      cases h
      exact ⟨hst, BinaryHeap.items_of_empty hpop⟩
    | some popped =>
      obtain ⟨node, rest⟩ := popped
      by_cases hstale : st.distOf node.router < node.cost
      · rw [spf_of_stale hpop hstale] at h
        exact ih _ (potential_pop hpop) (hst.stale hpop hstale) h rfl
      · rw [spf_of_fresh hpop (not_lt.mp hstale), Checked.bind_eq_ok] at h
        obtain ⟨mid, hmid, h⟩ := h
        exact ih _ ((potential_relaxAll (lsdb.closed _) hmid).trans_lt (potential_pop hpop))
          (hst.next hpop (not_lt.mp hstale) hmid) h rfl

theorem relaxAll_ok (hfits : ∀ l ∈ links, node.cost + l.2 < 2 ^ 32) :
    ∃ st', st.relaxAll src node links = .ok st' := by
  induction links generalizing st with
  | nil => exact ⟨st, rfl⟩
  | cons l links ih =>
    have hone : ∃ mid, st.relax src node l = .ok mid := by
      unfold relax
      rw [if_pos (hfits l List.mem_cons_self)]
      exact ⟨_, rfl⟩
    obtain ⟨mid, hmid⟩ := hone
    obtain ⟨st', hst'⟩ := @ih mid fun l hl => hfits l (List.mem_cons_of_mem _ hl)
    exact ⟨st', relaxAll_cons_eq_ok.mpr ⟨mid, hmid, hst'⟩⟩

end SpfState

/-- No distance and link after it come to `2 ^ 32`. -/
def OspfLsdb.Fits (lsdb : OspfLsdb) (src : Ipv4Address) : Prop :=
  ∀ u d, IsDist lsdb.edges src u d → ∀ v k, (v, k) ∈ lsdb.edges u → d + k < 2 ^ 32

namespace SpfState

variable {st st' : SpfState H} {rest : H}

theorem Frontier.spf_ok (hst : Frontier lsdb src ∅ st) (hfits : lsdb.Fits src) :
    ∃ st', st.spf lsdb src = .ok st' := by
  induction hn : st.potential lsdb using Nat.strong_induction_on generalizing st with
  | h n ih =>
    subst hn
    cases hpop : BinaryHeap.pop st.heap with
    | none => exact ⟨st, spf_of_empty hpop⟩
    | some popped =>
      obtain ⟨node, rest⟩ := popped
      by_cases hstale : st.distOf node.router < node.cost
      · rw [spf_of_stale hpop hstale]
        exact ih _ (potential_pop hpop) (hst.stale hpop hstale) rfl
      · rw [spf_of_fresh hpop (not_lt.mp hstale)]
        obtain ⟨-, hdist, -⟩ := hst.fresh hpop (not_lt.mp hstale)
        have hall : ∃ mid, SpfState.relaxAll src node ({ st with heap := rest } : SpfState H)
            (lsdb.edges node.router) = .ok mid :=
          relaxAll_ok fun l hl => hfits _ _ hdist l.1 l.2 hl
        obtain ⟨mid, hmid⟩ := hall
        rw [hmid, Checked.ok_bind]
        exact ih _ ((potential_relaxAll (lsdb.closed _) hmid).trans_lt (potential_pop hpop))
          (hst.next hpop (not_lt.mp hstale) hmid) rfl

/-- When nothing waits any more, the labels are the distances. -/
theorem Frontier.isDist_iff (hst : Frontier lsdb src ∅ st) (hdone : BinaryHeap.items st.heap = 0)
    (hd : d < u32Max) : IsDist lsdb.edges src v d ↔ st.distOf v = d := by
  refine ShortestPath.isDist_iff hst.labelled (fun u hu => ?_) hd
  rcases hst.waiting u (by simp) hu with hsettled | hmem
  · exact fun v k hv => (hsettled v k hv).2
  · simp [hdone] at hmem

end SpfState

/-- The routers other than the source that can be reached, with their distances and the first hop of
a shortest path. -/
structure ShortestTree (lsdb : OspfLsdb) (src : Ipv4Address)
    (res : HashMap Ipv4Address (ℕ × Option Ipv4Address)) : Prop where
  reached : ∀ v, (∃ r, res.lookup v = some r) ↔ v ≠ src ∧ ∃ c, Walk lsdb.edges src v c
  shortest : ∀ v c hop, res.lookup v = some (c, hop) →
    IsDist lsdb.edges src v c ∧ ∃ h, hop = some h ∧ FirstHop lsdb.edges src h v c

omit [BinaryHeap H SpfNode] in
theorem lookup_results [HashOrder] {st : SpfState H} :
    (st.results src).lookup v =
      if v ≠ src then (st.dist.lookup v).map fun c => (c, st.nextHopOf v) else none := by
  simp only [SpfState.results, lookup_collect, decide_eq_true_eq]

theorem SpfState.Frontier.shortestTree [HashOrder] {st : SpfState H} (hst : Frontier lsdb src ∅ st)
    (hdone : BinaryHeap.items st.heap = 0)
    (hnear : ∀ v d, IsDist lsdb.edges src v d → d < u32Max) :
    ShortestTree lsdb src (st.results src) := by
  have hlabel : ∀ v c, st.dist.lookup v = some c ↔ st.distOf v = c ∧ c < u32Max := by
    intro v c
    unfold distOf
    cases hv : st.dist.lookup v with
    | none => simpa using fun h => h.le
    | some c' =>
      have := hst.bounded v c' hv
      simp only [Option.some.injEq, Option.getD_some]
      exact ⟨fun h => ⟨h, h ▸ this⟩, And.left⟩
  have hdist : ∀ v c, st.dist.lookup v = some c ↔ IsDist lsdb.edges src v c := by
    intro v c
    rw [hlabel]
    constructor
    · rintro ⟨heq, hlt⟩
      exact (hst.isDist_iff hdone hlt).mpr heq
    · intro h
      have hlt := hnear v c h
      exact ⟨(hst.isDist_iff hdone hlt).mp h, hlt⟩
  refine ⟨fun v => ?_, fun v c hop h => ?_⟩
  · rw [lookup_results]
    by_cases hne : v = src
    · simp [hne]
    · rw [if_pos hne]
      constructor
      · rintro ⟨r, hr⟩
        obtain ⟨c, hc, -⟩ := Option.map_eq_some_iff.mp hr
        exact ⟨hne, c, ((hdist v c).mp hc).1⟩
      · rintro ⟨-, c, hwalk⟩
        obtain ⟨d, -, hd⟩ := exists_dist hwalk
        exact ⟨_, by rw [(hdist v d).mpr hd, Option.map_some]⟩
  · rw [lookup_results] at h
    split_ifs at h with hne
    obtain ⟨_, hc, hpair⟩ := Option.map_eq_some_iff.mp h
    cases hpair
    obtain ⟨heq, hlt⟩ := (hlabel v c).mp hc
    have hd := (hdist v c).mp hc
    obtain ⟨first, hfirst, hvia⟩ := hst.hop v hne (by omega)
    rw [heq] at hvia
    exact ⟨hd, first, hfirst, hvia.firstHop hd⟩

theorem OspfLsdb.dist_lt (links : List (Ipv4Address × Ipv4Address × ℕ))
    (hsum : ((triangle ++ links).map fun l => l.2.2).sum < u32Max)
    (h : IsDist (new.addLinks links).edges src v d) : d < u32Max :=
  (h.le_sum (links_new links)).trans_lt hsum

/-- Links that come to half of `2 ^ 32` never overflow. -/
theorem OspfLsdb.fits_of_small (links : List (Ipv4Address × Ipv4Address × ℕ))
    (hsum : 2 * ((triangle ++ links).map fun l => l.2.2).sum < 2 ^ 32) :
    (new.addLinks links).Fits src := by
  intro u d hd v k hv
  have hdist := hd.le_sum (links_new links)
  have hlink : k ≤ ((triangle ++ links).map fun l => l.2.2).sum := by
    rcases links_new links u v k hv with hmem | hmem
    · exact List.le_sum_of_mem (List.mem_map.mpr ⟨_, hmem, rfl⟩)
    · exact List.le_sum_of_mem (List.mem_map.mpr ⟨_, hmem, rfl⟩)
  omega

/-- `compute_shortest_paths` returns the shortest paths exactly when it adds no link to a distance
beyond `u32`. -/
theorem OspfLsdb.shortest_paths_iff (H : Type) [BinaryHeap H SpfNode] [HashOrder]
    (links : List (Ipv4Address × Ipv4Address × ℕ)) (src : Ipv4Address)
    (hsum : ((triangle ++ links).map fun l => l.2.2).sum < 2 ^ 32 - 1) :
    (∃ res, (new.addLinks links).computeShortestPaths H src = .ok res ∧
      ShortestTree (new.addLinks links) src res) ↔ (new.addLinks links).Fits src := by
  constructor
  · rintro ⟨res, hres, -⟩ u d hd v k hv
    obtain ⟨st, hst, -⟩ := Checked.bind_eq_ok.mp hres
    obtain ⟨hfrontier, hdone⟩ := SpfState.frontier_start.spf hst
    have hlt := dist_lt links hsum hd
    have hlabel := (hfrontier.isDist_iff hdone hlt).mp hd
    rcases hfrontier.waiting u (by simp) (by omega) with hsettled | hmem
    · rw [← hlabel]
      exact (hsettled v k hv).1
    · simp [hdone] at hmem
  · intro hfits
    have hstart : SpfState.Frontier (new.addLinks links) src ∅ (SpfState.start src : SpfState H) :=
      SpfState.frontier_start
    obtain ⟨st, hst⟩ := hstart.spf_ok hfits
    obtain ⟨hfrontier, hdone⟩ := hstart.spf hst
    refine ⟨st.results src, Checked.bind_of_eq_ok _ hst,
      hfrontier.shortestTree hdone fun v d hd => ?_⟩
    exact dist_lt links hsum hd

/-! ### On a list -/

/-- A heap that keeps a list and gives out the latest of the cheapest nodes. -/
@[reducible] def latestCheapest : BinaryHeap (List SpfNode) SpfNode where
  new := []
  push h a := a :: h
  pop h := (h.argmin SpfNode.cost).map fun a => (a, h.erase a)
  items h := h
  items_new := rfl
  items_push _ _ := rfl
  items_of_empty := by
    intro h hpop
    rw [Option.map_eq_none_iff, List.argmin_eq_none] at hpop
    rw [hpop]
    rfl
  items_of_pop := by
    intro h rest a hpop
    obtain ⟨a', ha, heq⟩ := Option.map_eq_some_iff.mp hpop
    cases heq
    refine ⟨(Multiset.coe_eq_coe.mpr (List.perm_cons_erase (List.argmin_mem ha))), fun b hb => ?_⟩
    exact compare_ne_gt.mpr (List.le_of_mem_argmin (List.mem_of_mem_erase hb) ha)

section runs

attribute [local instance] latestCheapest latestFirst

theorem OspfLsdb.shortest_paths_iff_triangle :
    ∃ res, (new.addLinks []).computeShortestPaths (List SpfNode) ⟨1, 1, 1, 1⟩ = .ok res ∧
      ShortestTree (new.addLinks []) ⟨1, 1, 1, 1⟩ res :=
  (shortest_paths_iff (List SpfNode) [] ⟨1, 1, 1, 1⟩ (by decide)).mpr (fits_of_small [] (by decide))

def heavy : List (Ipv4Address × Ipv4Address × ℕ) := [(⟨1, 1, 1, 1⟩, ⟨4, 4, 4, 4⟩, 2 ^ 31 - 5)]

/-- A heavy link is added twice to the distance of its near end. -/
theorem OspfLsdb.overflow_on_the_way_back :
    ((triangle ++ heavy).map fun l => l.2.2).sum < 2 ^ 32 - 1 ∧
      ¬ ∃ res, (new.addLinks heavy).computeShortestPaths (List SpfNode) ⟨3, 3, 3, 3⟩ = .ok res := by
  have hpanic : (new.addLinks heavy).computeShortestPaths (List SpfNode) ⟨3, 3, 3, 3⟩ = .panic := by
    decide +kernel
  refine ⟨by decide, ?_⟩
  rintro ⟨res, hres⟩
  rw [hpanic] at hres
  cases hres

end runs

end ToyTcpip.Ospf
