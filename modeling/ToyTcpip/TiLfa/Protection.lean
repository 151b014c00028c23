import ToyTcpip.TiLfa.Dijkstra

/-! Protection paths of `ti_lfa.rs`, and when they keep clear of the failed link. -/
namespace ToyTcpip.TiLfa

open Hashed ShortestPath

structure TiLfaProtectionPath where
  destination : String
  failedLink : String × String
  primaryNextHop : String
  backupNextHop : String
  repairNode : Option String
  backupSegmentList : List ℕ
  deriving DecidableEq

/-- The first hop of the path that the predecessors lead back, after at most `n` nodes. -/
def traceBack (post : HashMap String (ℕ × Option String)) (src : String) :
    ℕ → String → Option String
  | 0, _ => none
  | n + 1, cur =>
    match post.lookup cur with
    | some (_, some p) => if p = src then some cur else traceBack post src n p
    | _ => some cur

/-- `p.intersection(&q)`, which goes through the smaller set. -/
def intersection [HashOrder] (p q : List String) : List String :=
  if p.length ≤ q.length then (HashOrder.iter p).filter fun n => n ∈ q
  else (HashOrder.iter q).filter fun n => n ∈ p

namespace TiLfaEngine

/-- Nodes reachable from the source without the failed link. -/
def pSpace [HashOrder] (e : TiLfaEngine) (src failedNeighbor : String) : List String :=
  ((HashOrder.iter (e.dijkstra src (some (src, failedNeighbor))).entries).filter
    fun x => x.2.1 < u32Max).map fun x => x.1

/-- Nodes that can reach the destination without the failed link. -/
def qSpace [HashOrder] (e : TiLfaEngine) (src dst failedNeighbor : String) : List String :=
  (HashOrder.iter e.nodeSids.keys).filter fun node =>
    match (e.dijkstra node (some (src, failedNeighbor))).lookup dst with
    | some (d, _) => d < u32Max
    | none => false

/-- The segments to the repair node and on to the destination. -/
def segments (e : TiLfaEngine) (repairNode : Option String) (dst : String) : List ℕ :=
  (repairNode.bind e.nodeSids.lookup).toList ++ (e.nodeSids.lookup dst).toList

def repairNode [HashOrder] (e : TiLfaEngine) (src dst failedNeighbor : String) : Option String :=
  (intersection (e.pSpace src failedNeighbor) (e.qSpace src dst failedNeighbor)).find?
    fun n => n ≠ src ∧ n ≠ dst

def protectionPath (e : TiLfaEngine) (src dst failedNeighbor backupNextHop : String)
    (repairNode : Option String) : TiLfaProtectionPath where
  destination := dst
  failedLink := (src, failedNeighbor)
  primaryNextHop := failedNeighbor
  backupNextHop := backupNextHop
  repairNode := repairNode
  backupSegmentList := e.segments repairNode dst

/-- `compute_protection`; `none` when the trace has not ended after as many nodes as there are. -/
def computeProtection [HashOrder] (e : TiLfaEngine) (src dst failedNeighbor : String) :
    Option (Option TiLfaProtectionPath) :=
  let post := e.dijkstra src (some (src, failedNeighbor))
  match post.lookup dst with
  | none => some none
  | some (postDist, _) =>
    if postDist = u32Max then some none
    else (traceBack post src post.entries.length dst).map fun backupNextHop =>
      some (e.protectionPath src dst failedNeighbor backupNextHop
        (e.repairNode src dst failedNeighbor))

end TiLfaEngine

/-! ### What protection is for -/

/-- The hops of a packet that follows, for one segment after the other, a shortest path to a node
with its label. -/
inductive Steered (e : TiLfaEngine) : String → List ℕ → List (String × String) → Prop
  | arrived (u : String) : Steered e u [] []
  | segment {u v : String} {sid c : ℕ} {sids : List ℕ} {hops rest : List (String × String)}
      (hsid : e.nodeSids.lookup v = some sid) (htrail : Trail (e.edges none) u v hops c)
      (hshortest : IsDist (e.edges none) u v c) (hrest : Steered e v sids rest) :
      Steered e u (sid :: sids) (hops ++ rest)

/-- The link is crossed, one way or the other. -/
def Crosses (u v : String) (hops : List (String × String)) : Prop := (u, v) ∈ hops ∨ (v, u) ∈ hops

variable {e : TiLfaEngine} {src dst failedNeighbor n u v : String} {l : List String} {c d k m : ℕ}
  {path : TiLfaProtectionPath}

/-- Distances are right, the next hop begins a shortest path without the failed link, and the
segments lead around it. -/
structure Protects [HashOrder] (e : TiLfaEngine) (src dst failedNeighbor : String)
    (path : TiLfaProtectionPath) : Prop where
  distances : ∀ x, Distances (e.edges (some (src, failedNeighbor))) x
    (e.dijkstra x (some (src, failedNeighbor)))
  firstHop : ∃ d, IsDist (e.edges (some (src, failedNeighbor))) src dst d ∧
    FirstHop (e.edges (some (src, failedNeighbor))) src path.backupNextHop dst d
  detour : ∀ hops, Steered e src path.backupSegmentList hops → ¬ Crosses src failedNeighbor hops

/-- Within reach of `u32` labels. -/
def Reaches (e : TiLfaEngine) (excluded : Option (String × String)) (u v : String) : Prop :=
  ∃ d < u32Max, IsDist (e.edges excluded) u v d

/-- Nodes in the P-space and the Q-space, other than the ends. -/
structure Candidate (e : TiLfaEngine) (src dst failedNeighbor n : String) : Prop where
  node : n ∈ e.nodeSids
  notSource : n ≠ src
  notDestination : n ≠ dst
  inP : Reaches e (some (src, failedNeighbor)) src n
  inQ : Reaches e (some (src, failedNeighbor)) n dst

/-- A candidate, or none when there is none. -/
def IsRepair (e : TiLfaEngine) (src dst failedNeighbor : String) : Option String → Prop
  | some n => Candidate e src dst failedNeighbor n
  | none => ∀ n, ¬ Candidate e src dst failedNeighbor n

/-! ### What is computed -/

section computed

variable [HashOrder]

theorem mem_intersection {p q : List String} : n ∈ intersection p q ↔ n ∈ p ∧ n ∈ q := by
  unfold intersection
  split
  · simp
  · simp [and_comm]

/-- Labels below `u32::MAX` are the nodes within reach. -/
theorem lookup_dijkstra_iff {excluded : Option (String × String)} (hreg : e.Registered) :
    (∃ d p, (e.dijkstra u excluded).lookup v = some (d, p) ∧ d < u32Max) ↔
      Reaches e excluded u v := by
  constructor
  · rintro ⟨d, p, hd, hlt⟩
    exact ⟨d, hlt, (isDist_settled hreg hlt).mpr (distOf_of_lookup hd).1⟩
  · rintro ⟨d, hlt, hd⟩
    have hdist := (isDist_settled hreg hlt).mp hd
    have hlookup := @lookup_dijkstra_of_lt e excluded u v _ (by omega)
    rw [hdist] at hlookup
    exact ⟨d, _, hlookup, hlt⟩

theorem mem_pSpace (hreg : e.Registered) :
    n ∈ e.pSpace src failedNeighbor ↔ Reaches e (some (src, failedNeighbor)) src n := by
  rw [← lookup_dijkstra_iff hreg]
  simp only [TiLfaEngine.pSpace, List.mem_map, List.mem_filter, mem_iter, decide_eq_true_eq]
  constructor
  · rintro ⟨⟨n', d, p⟩, ⟨hmem, hlt⟩, rfl⟩
    exact ⟨d, p, mem_entries.mp hmem, hlt⟩
  · rintro ⟨d, p, hlookup, hlt⟩
    exact ⟨⟨n, d, p⟩, ⟨mem_entries.mpr hlookup, hlt⟩, rfl⟩

theorem mem_qSpace (hreg : e.Registered) :
    n ∈ e.qSpace src dst failedNeighbor ↔
      n ∈ e.nodeSids ∧ Reaches e (some (src, failedNeighbor)) n dst := by
  rw [← lookup_dijkstra_iff hreg, TiLfaEngine.qSpace, List.mem_filter, mem_iter, ← AList.mem_keys]
  refine and_congr_right fun _ => ?_
  cases (e.dijkstra n (some (src, failedNeighbor))).lookup dst with
  | none => simp
  | some r =>
    obtain ⟨d, p⟩ := r
    simp

theorem candidate_iff (hreg : e.Registered) :
    Candidate e src dst failedNeighbor n ↔
      n ∈ intersection (e.pSpace src failedNeighbor) (e.qSpace src dst failedNeighbor) ∧
        n ≠ src ∧ n ≠ dst := by
  rw [mem_intersection, mem_pSpace hreg, mem_qSpace hreg]
  constructor
  · rintro ⟨hnode, hsrc, hdst, hp, hq⟩
    exact ⟨⟨hp, hnode, hq⟩, hsrc, hdst⟩
  · rintro ⟨⟨hp, hnode, hq⟩, hsrc, hdst⟩
    exact ⟨hnode, hsrc, hdst, hp, hq⟩

theorem isRepair_repairNode (hreg : e.Registered) :
    IsRepair e src dst failedNeighbor (e.repairNode src dst failedNeighbor) := by
  unfold TiLfaEngine.repairNode
  cases h : (intersection (e.pSpace src failedNeighbor) (e.qSpace src dst failedNeighbor)).find?
      fun n => n ≠ src ∧ n ≠ dst with
  | none =>
    intro n hn
    have hn := (candidate_iff hreg).mp hn
    have := List.find?_eq_none.mp h n hn.1
    simp [hn.2] at this
  | some n =>
    have hn := List.find?_some h
    exact (candidate_iff hreg).mpr ⟨List.mem_of_find?_eq_some h, by simpa using hn⟩

/-- From a visited node the trace ends at the first hop of a walk that costs its label. -/
theorem traceBack_visited {excluded : Option (String × String)} (hreg : e.Registered)
    (hne : v ≠ src) (hv : (v :: l) <:+ (e.settled src excluded).visited) (hm : l.length < m) :
    ∃ h, traceBack (e.dijkstra src excluded) src m v = some h ∧
      Via (e.edges excluded) src h v ((e.settled src excluded).distOf v) := by
  have hst := @tree_settled e excluded src _ hreg
  induction m generalizing v l with
  | zero => exact absurd hm (Nat.not_lt_zero _)
  | succ m ih =>
    have hreached := hst.reached v (hv.subset List.mem_cons_self)
    obtain ⟨u, hu, hprev⟩ := (hst.chain v l hv).resolve_left hne
    obtain ⟨u', -, hprev', k, hlink, hdist⟩ := hst.tree v hne hreached
    rw [hprev] at hprev'
    cases hprev'
    rw [traceBack, lookup_dijkstra_of_lt hreached, hprev]
    dsimp only
    by_cases hsrc : u = src
    · subst hsrc
      rw [if_pos rfl, hdist, hst.labelled.source, Nat.zero_add]
      exact ⟨v, rfl, via_of_edge hlink hne⟩
    · rw [if_neg hsrc]
      obtain ⟨l₁, l₂, rfl⟩ := List.append_of_mem hu
      have hsuffix : (u :: l₂) <:+ (e.settled src excluded).visited :=
        ((List.suffix_append l₁ (u :: l₂)).trans (List.suffix_cons v _)).trans hv
      rw [List.length_append, List.length_cons] at hm
      obtain ⟨h, htrace, hvia⟩ := ih hsrc hsuffix (by omega)
      rw [hdist]
      exact ⟨h, htrace, hvia.step hlink hne⟩

/-- The trace comes to an end. -/
theorem traceBack_eq {excluded : Option (String × String)} (hreg : e.Registered) (hne : v ≠ src)
    (hv : (e.settled src excluded).distOf v < u32Max) :
    ∃ h, traceBack (e.dijkstra src excluded) src (e.dijkstra src excluded).entries.length v =
      some h ∧
      Via (e.edges excluded) src h v ((e.settled src excluded).distOf v) := by
  have hst := @tree_settled e excluded src _ hreg
  obtain ⟨l₁, l₂, heq⟩ := List.append_of_mem (mem_visited_settled hreg hne hv)
  have hsub : (e.settled src excluded).visited ⊆ (e.dijkstra src excluded).keys := by
    intro u hu
    rw [← AList.mem_keys, ← AList.lookup_isSome, lookup_dijkstra_of_lt (hst.reached u hu)]
    rfl
  have hlength := (List.subperm_of_subset hst.nodup hsub).length_le
  rw [AList.keys, List.keys, List.length_map, heq, List.length_append, List.length_cons] at hlength
  exact traceBack_visited hreg hne (heq ▸ List.suffix_append l₁ (v :: l₂)) (by omega)

/-- The trace of a direct link that is a shortest path. -/
theorem traceBack_direct {excluded : Option (String × String)} (hreg : e.Registered) (hne : v ≠ src)
    (hd : IsDist (e.edges excluded) src v d) (hlt : d < u32Max)
    (hlink : (v, d) ∈ e.edges excluded src) (hm : 0 < m) :
    traceBack (e.dijkstra src excluded) src m v = some v := by
  have hst := @tree_settled e excluded src _ hreg
  have hdist := (isDist_settled hreg hlt).mp hd
  have hprev := hst.direct v d hlink hne hdist (by omega)
  obtain ⟨m, rfl⟩ := Nat.exists_eq_succ_of_ne_zero hm.ne'
  rw [traceBack, lookup_dijkstra_of_lt (by omega), hprev]
  exact if_pos rfl

/-- The first hop is the destination when its link is a shortest path, and else a candidate. -/
theorem hop_cases (hreg : e.Registered) (hne : dst ≠ src) (hlt : d < u32Max)
    (hd : IsDist (e.edges (some (src, failedNeighbor))) src dst d) :
    ∃ h, traceBack (e.dijkstra src (some (src, failedNeighbor))) src
        (e.dijkstra src (some (src, failedNeighbor))).entries.length dst = some h ∧
      FirstHop (e.edges (some (src, failedNeighbor))) src h dst d ∧
      if (dst, d) ∈ e.edges (some (src, failedNeighbor)) src then h = dst
      else Candidate e src dst failedNeighbor h := by
  have hdist := (isDist_settled hreg hlt).mp hd
  obtain ⟨h, htrace, hvia⟩ := traceBack_eq hreg hne (hdist.trans_lt hlt)
  rw [hdist] at hvia
  refine ⟨h, htrace, hvia.firstHop hd, ?_⟩
  split
  · rename_i hlink
    have hpos : 0 < (e.dijkstra src (some (src, failedNeighbor))).entries.length := by
      by_contra hzero
      rw [Nat.eq_zero_of_not_pos hzero] at htrace
      cases htrace
    rw [traceBack_direct hreg hne hd hlt hlink hpos] at htrace
    exact (Option.some.inj htrace).symm
  · rename_i hlink
    obtain ⟨k, n, c, hedge, hwalk, rfl⟩ := hvia
    have hstart : h ≠ src := by
      cases hwalk with
      | refl hu => simpa using hu
      | cons hu => simpa using hu
    obtain ⟨c', hle, hpath⟩ := hwalk.path
    obtain ⟨a, ha, ha'⟩ := exists_dist (walk_of_edge hedge)
    obtain ⟨b, hb, hb'⟩ := exists_dist hpath.walk
    obtain ⟨l, hl, -, -, rfl, -⟩ := TiLfaEngine.mem_edges.mp hedge
    refine ⟨(hreg l hl).2, hstart, fun heq => hlink ?_, ⟨a, by omega, ha'⟩, ⟨b, by omega, hb'⟩⟩
    have hshort := hd.2 k (walk_of_edge (heq ▸ hedge))
    have hzero : k + c = k := by omega
    rw [hzero, ← heq]
    exact hedge

theorem computeProtection_of_trace {p : Option String} {h : String}
    (hlookup : (e.dijkstra src (some (src, failedNeighbor))).lookup dst = some (d, p))
    (hlt : d < u32Max)
    (htrace : traceBack (e.dijkstra src (some (src, failedNeighbor))) src
      (e.dijkstra src (some (src, failedNeighbor))).entries.length dst = some h) :
    e.computeProtection src dst failedNeighbor = some (some
      (e.protectionPath src dst failedNeighbor h (e.repairNode src dst failedNeighbor))) := by
  simp only [TiLfaEngine.computeProtection, hlookup]
  rw [if_neg hlt.ne, htrace]
  rfl

theorem computeProtection_reaches (hreg : e.Registered)
    (h : e.computeProtection src dst failedNeighbor = some (some path)) :
    Reaches e (some (src, failedNeighbor)) src dst := by
  rw [← lookup_dijkstra_iff hreg]
  unfold TiLfaEngine.computeProtection at h
  dsimp only at h
  split at h
  · cases h
  · rename_i d p hlookup
    split at h
    · cases h
    · rename_i hne
      have hbound := (@tree_settled e (some (src, failedNeighbor)) src _ hreg).bounded dst
      rw [(distOf_of_lookup hlookup).1] at hbound
      exact ⟨d, p, hlookup, lt_of_le_of_ne hbound hne⟩

theorem computeProtection_eq (hreg : e.Registered) (hne : dst ≠ src) (hlt : d < u32Max)
    (hd : IsDist (e.edges (some (src, failedNeighbor))) src dst d) :
    ∃ h, e.computeProtection src dst failedNeighbor = some (some
        (e.protectionPath src dst failedNeighbor h (e.repairNode src dst failedNeighbor))) ∧
      FirstHop (e.edges (some (src, failedNeighbor))) src h dst d ∧
      if (dst, d) ∈ e.edges (some (src, failedNeighbor)) src then h = dst
      else Candidate e src dst failedNeighbor h := by
  have hdist := (isDist_settled hreg hlt).mp hd
  obtain ⟨h, htrace, hrest⟩ := hop_cases hreg hne hlt hd
  have hlookup := lookup_dijkstra_of_lt (hdist.trans_lt hlt)
  exact ⟨h, computeProtection_of_trace hlookup (hdist.trans_lt hlt) htrace, hrest⟩

/-- The source is its own next hop towards itself. -/
theorem computeProtection_self (hreg : e.Registered) :
    e.computeProtection src src failedNeighbor = some (some
      (e.protectionPath src src failedNeighbor src (e.repairNode src src failedNeighbor))) := by
  have hst := @tree_settled e (some (src, failedNeighbor)) src _ hreg
  have hzero : (e.settled src (some (src, failedNeighbor))).distOf src < u32Max := by
    rw [hst.labelled.source]
    decide
  have hlookup := lookup_dijkstra_of_lt hzero
  refine computeProtection_of_trace hlookup hzero ?_
  obtain ⟨m, hm⟩ := Nat.exists_eq_succ_of_ne_zero
    (List.length_pos_of_mem (mem_entries.mpr hlookup)).ne'
  rw [hm, traceBack, hlookup, hst.origin]

end computed

theorem repairNode_preferring (hreg : e.Registered) (hn : Candidate e src dst failedNeighbor n) :
    @TiLfaEngine.repairNode (preferring n) e src dst failedNeighbor = some n := by
  obtain ⟨hmem, hsrc, hdst⟩ := (@candidate_iff e src dst failedNeighbor n (preferring n) hreg).mp hn
  have hpq := (@mem_intersection n (preferring n) _ _).mp hmem
  unfold TiLfaEngine.repairNode intersection
  split
  · rw [List.find?_filter]
    exact find?_preferring hpq.1 (by simp [hpq.2, hsrc, hdst])
  · rw [List.find?_filter]
    exact find?_preferring hpq.2 (by simp [hpq.1, hsrc, hdst])

/-- Packets for the one node may be sent to the other. -/
def SameSid (e : TiLfaEngine) (u v : String) : Prop :=
  ∃ sid, e.nodeSids.lookup u = some sid ∧ e.nodeSids.lookup v = some sid

/-- Before the failure, the one node is reached from the other. -/
def Joined (e : TiLfaEngine) (u v : String) : Prop := ∃ c, Walk (e.edges none) u v c

/-- By the costs and distances before the failure, some shortest path from `u` to `v` takes the
link, one way or the other. -/
def Over (e : TiLfaEngine) (src failedNeighbor u v : String) : Prop :=
  OnShortest (e.edges none) u v src failedNeighbor ∨
  OnShortest (e.edges none) u v failedNeighbor src

/-- The ends differ; there is at most one candidate; without one no shortest path to the destination
takes the failed link, and else neither a shortest path to the candidate nor one from there on
does. -/
structure Clear (e : TiLfaEngine) (src dst failedNeighbor : String) : Prop where
  distinct : src ≠ dst
  single : ∀ a b, Candidate e src dst failedNeighbor a →
    Candidate e src dst failedNeighbor b → a = b
  direct : (∀ n, ¬ Candidate e src dst failedNeighbor n) →
    ∀ y, SameSid e dst y → ¬ Over e src failedNeighbor src y
  repaired : ∀ n, Candidate e src dst failedNeighbor n → ∀ x y, SameSid e n x → SameSid e dst y →
    Joined e src x → Joined e x y →
    ¬ Over e src failedNeighbor src x ∧ ¬ Over e src failedNeighbor x y

theorem Over.joined (h : Over e src failedNeighbor u v) : Joined e u v := by
  rcases h with ⟨c, k, d, -, -, -, hdist⟩ | ⟨c, k, d, -, -, -, hdist⟩ <;> exact ⟨_, hdist.1⟩

theorem over_iff : Over e src failedNeighbor u v ↔ ∃ hops c, Trail (e.edges none) u v hops c ∧
    IsDist (e.edges none) u v c ∧ Crosses src failedNeighbor hops := by
  simp only [Over, onShortest_iff, Crosses, and_or_left, exists_or]

theorem Joined.trail (h : Joined e u v) :
    ∃ hops c, Trail (e.edges none) u v hops c ∧ IsDist (e.edges none) u v c := by
  obtain ⟨c, hwalk⟩ := h
  obtain ⟨d, -, hdist⟩ := exists_dist hwalk
  obtain ⟨hops, htrail⟩ := hdist.1.trail
  exact ⟨hops, d, htrail, hdist⟩

theorem crosses_append {hops rest : List (String × String)} :
    Crosses u v (hops ++ rest) ↔ Crosses u v hops ∨ Crosses u v rest := by
  simp only [Crosses, List.mem_append]
  tauto

/-- Packets for a single segment. -/
theorem steered_sid_iff {sid : ℕ} (hsid : e.nodeSids.lookup dst = some sid) :
    (∀ hops, Steered e u [sid] hops → ¬ Crosses src failedNeighbor hops) ↔
      ∀ y, SameSid e dst y → ¬ Over e src failedNeighbor u y := by
  constructor
  · rintro h y ⟨sid', hdst, hy⟩ hover
    obtain ⟨hops, c, htrail, hdist, hcrosses⟩ := over_iff.mp hover
    obtain rfl : sid' = sid := by rwa [hsid, Option.some.injEq, eq_comm] at hdst
    refine h _ (.segment hy htrail hdist (.arrived y)) ?_
    rwa [List.append_nil]
  · intro h hops hsteered hcrosses
    cases hsteered with
    | @segment _ y _ _ _ hops _ hy htrail hdist hrest =>
      cases hrest
      rw [List.append_nil] at hcrosses
      exact h y ⟨sid, hsid, hy⟩ (over_iff.mpr ⟨hops, _, htrail, hdist, hcrosses⟩)

/-- Packets for a segment before others. -/
theorem steered_cons_iff {sid : ℕ} {sids : List ℕ} (hsid : e.nodeSids.lookup n = some sid) :
    (∀ hops, Steered e u (sid :: sids) hops → ¬ Crosses src failedNeighbor hops) ↔
      ∀ x, SameSid e n x → Joined e u x → ∀ rest, Steered e x sids rest →
        ¬ Over e src failedNeighbor u x ∧ ¬ Crosses src failedNeighbor rest := by
  constructor
  · rintro h x ⟨sid', hn, hx⟩ hjoined rest hrest
    obtain rfl : sid' = sid := by rwa [hsid, Option.some.injEq, eq_comm] at hn
    constructor
    · intro hover
      obtain ⟨hops, c, htrail, hdist, hcrosses⟩ := over_iff.mp hover
      exact h _ (.segment hx htrail hdist hrest) (crosses_append.mpr (.inl hcrosses))
    · intro hcrosses
      obtain ⟨hops, c, htrail, hdist⟩ := hjoined.trail
      exact h _ (.segment hx htrail hdist hrest) (crosses_append.mpr (.inr hcrosses))
  · intro h hops hsteered hcrosses
    cases hsteered with
    | @segment _ x _ _ _ hops rest hx htrail hdist hrest =>
      obtain ⟨hover, hclear⟩ := h x ⟨sid, hsid, hx⟩ ⟨_, hdist.1⟩ rest hrest
      rcases crosses_append.mp hcrosses with hcrosses | hcrosses
      · exact hover (over_iff.mpr ⟨hops, _, htrail, hdist, hcrosses⟩)
      · exact hclear hcrosses

/-- Without a repair node, the only segment is that of the destination. -/
theorem detour_none_iff (hdst : dst ∈ e.nodeSids) :
    (∀ hops, Steered e src (e.segments none dst) hops → ¬ Crosses src failedNeighbor hops) ↔
      ∀ y, SameSid e dst y → ¬ Over e src failedNeighbor src y := by
  obtain ⟨sid, hsid⟩ := Option.isSome_iff_exists.mp (AList.lookup_isSome.mpr hdst)
  have hsegments : e.segments none dst = [sid] := by
    rw [TiLfaEngine.segments, hsid]
    rfl
  rw [hsegments, steered_sid_iff hsid]

theorem detour_some_iff (hn : n ∈ e.nodeSids) (hdst : dst ∈ e.nodeSids) :
    (∀ hops, Steered e src (e.segments (some n) dst) hops → ¬ Crosses src failedNeighbor hops) ↔
      ∀ x y, SameSid e n x → SameSid e dst y → Joined e src x → Joined e x y →
        ¬ Over e src failedNeighbor src x ∧ ¬ Over e src failedNeighbor x y := by
  obtain ⟨sid, hsid⟩ := Option.isSome_iff_exists.mp (AList.lookup_isSome.mpr hn)
  obtain ⟨sid', hsid'⟩ := Option.isSome_iff_exists.mp (AList.lookup_isSome.mpr hdst)
  have hsegments : e.segments (some n) dst = [sid, sid'] := by
    rw [TiLfaEngine.segments, Option.bind_some, hsid, hsid']
    rfl
  rw [hsegments, steered_cons_iff hsid]
  constructor
  · intro h x y hx hy hto hon
    obtain ⟨sid'', hdst', hy⟩ := hy
    obtain rfl : sid'' = sid' := by rwa [hsid', Option.some.injEq, eq_comm] at hdst'
    obtain ⟨hops, c, htrail, hdist⟩ := hon.trail
    refine ⟨(h x hx hto _ (.segment hy htrail hdist (.arrived y))).1, ?_⟩
    exact (steered_sid_iff hsid').mp (fun rest hrest => (h x hx hto rest hrest).2) y ⟨_, hsid', hy⟩
  · intro h x hx hto rest hrest
    have hlegs := fun y hy => h x y hx hy hto
    constructor
    · cases hrest with
      | @segment _ y _ _ _ _ _ hy htrail hdist _ =>
        exact (hlegs y ⟨sid', hsid', hy⟩ ⟨_, hdist.1⟩).1
    · exact (steered_sid_iff hsid').mpr (fun y hy hover =>
        (hlegs y hy hover.joined).2 hover) rest hrest

/-- A node that is reached from another one is the end of a link. -/
theorem registered_of_reaches {excluded : Option (String × String)} (hreg : e.Registered)
    (hne : src ≠ dst) (h : Reaches e excluded src dst) : dst ∈ e.nodeSids := by
  obtain ⟨d, -, hdist⟩ := h
  obtain ⟨hwalk, -⟩ := hdist
  cases hwalk with
  | refl => exact absurd rfl hne
  | step front last =>
    obtain ⟨l, hl, -, -, rfl, -⟩ := TiLfaEngine.mem_edges.mp last
    exact (hreg l hl).2

/-- Whatever the repair node, packets keep clear of the failed link. -/
theorem Clear.detour (h : Clear e src dst failedNeighbor) (hdst : dst ∈ e.nodeSids)
    {r : Option String} (hr : IsRepair e src dst failedNeighbor r) {hops : List (String × String)}
    (hsteered : Steered e src (e.segments r dst) hops) : ¬ Crosses src failedNeighbor hops := by
  cases r with
  | none => exact (detour_none_iff hdst).mpr (h.direct hr) hops hsteered
  | some n => exact (detour_some_iff hr.node hdst).mpr (h.repaired n hr) hops hsteered

theorem Clear.isRepair_eq (h : Clear e src dst failedNeighbor) {r r' : Option String}
    (hr : IsRepair e src dst failedNeighbor r) (hr' : IsRepair e src dst failedNeighbor r') :
    r = r' := by
  cases r with
  | none =>
    cases r' with
    | none => rfl
    | some n' => exact absurd hr' (hr n')
  | some n =>
    cases r' with
    | none => exact absurd hr (hr' n)
    | some n' => rw [h.single n n' hr hr']

theorem Clear.protects [HashOrder] (h : Clear e src dst failedNeighbor) (hreg : e.Registered)
    (hcosts : e.CostsBelow)
    (hpath : e.computeProtection src dst failedNeighbor = some (some path)) :
    Protects e src dst failedNeighbor path := by
  obtain ⟨d, hlt, hd⟩ := computeProtection_reaches hreg hpath
  obtain ⟨hop, heq, hfirst, -⟩ := computeProtection_eq hreg h.distinct.symm hlt hd
  rw [hpath] at heq
  cases heq
  have hdst := registered_of_reaches hreg h.distinct ⟨d, hlt, hd⟩
  exact ⟨fun x => distances_dijkstra hreg hcosts, ⟨d, hd, hfirst⟩,
    fun hops => h.detour hdst (isRepair_repairNode hreg)⟩

/-- All orders of iteration give one path. -/
theorem Clear.computeProtection_eq (h : Clear e src dst failedNeighbor) (hreg : e.Registered)
    (o o' : HashOrder)
    (hpath : @TiLfaEngine.computeProtection o e src dst failedNeighbor = some (some path)) :
    @TiLfaEngine.computeProtection o' e src dst failedNeighbor = some (some path) := by
  obtain ⟨d, hlt, hd⟩ := @computeProtection_reaches _ _ _ _ _ o hreg hpath
  obtain ⟨hop, heq, -, hhop⟩ := @TiLfa.computeProtection_eq _ _ _ _ _ o hreg h.distinct.symm hlt hd
  obtain ⟨hop', heq', -, hhop'⟩ :=
    @TiLfa.computeProtection_eq _ _ _ _ _ o' hreg h.distinct.symm hlt hd
  have hrepair := h.isRepair_eq (@isRepair_repairNode e src dst failedNeighbor o hreg)
    (@isRepair_repairNode e src dst failedNeighbor o' hreg)
  have hsame : hop = hop' := by
    split_ifs at hhop hhop'
    · rw [hhop, hhop']
    · exact h.single hop hop' hhop hhop'
  rw [hpath] at heq
  rw [heq', heq, hrepair, hsame]

/-- With the protection of each node that may be the repair node, packets keep clear. -/
theorem clear_of_protects (hreg : e.Registered)
    (hreach : Reaches e (some (src, failedNeighbor)) src dst)
    (h : ∀ (o : HashOrder) path, @TiLfaEngine.computeProtection o e src dst failedNeighbor =
      some (some path) →
      @Protects o e src dst failedNeighbor path ∧
        ∀ o' : HashOrder, @TiLfaEngine.computeProtection o' e src dst failedNeighbor =
          some (some path)) :
    Clear e src dst failedNeighbor := by
  obtain ⟨d, hlt, hd⟩ := hreach
  have hdistinct : src ≠ dst := by
    rintro rfl
    obtain ⟨-, ⟨_, -, _, _, -, hpath, -⟩, -⟩ :=
      (h latestFirst _ (@computeProtection_self e src failedNeighbor latestFirst hreg)).1
    exact absurd (Finset.mem_singleton_self src) hpath.start
  have hpath := fun o => @TiLfa.computeProtection_eq e src dst failedNeighbor d o hreg
    hdistinct.symm hlt hd
  have hdst := registered_of_reaches hreg hdistinct ⟨d, hlt, hd⟩
  refine ⟨hdistinct, fun a b ha hb => ?_, fun hnone => ?_, fun n hn => ?_⟩
  · obtain ⟨hop, heq, -⟩ := hpath (preferring a)
    obtain ⟨hop', heq', -⟩ := hpath (preferring b)
    rw [(h _ _ heq).2 (preferring b)] at heq'
    have hrepair := congrArg TiLfaProtectionPath.repairNode (Option.some.inj (Option.some.inj heq'))
    simp only [TiLfaEngine.protectionPath] at hrepair
    rw [repairNode_preferring hreg ha, repairNode_preferring hreg hb] at hrepair
    exact Option.some.inj hrepair
  · obtain ⟨hop, heq, -⟩ := hpath latestFirst
    obtain ⟨-, -, hdetour⟩ := (h _ _ heq).1
    have hrepair := @isRepair_repairNode e src dst failedNeighbor latestFirst hreg
    cases hnode : @TiLfaEngine.repairNode latestFirst e src dst failedNeighbor with
    | none =>
      simp only [TiLfaEngine.protectionPath, hnode] at hdetour
      exact (detour_none_iff hdst).mp hdetour
    | some n =>
      rw [hnode] at hrepair
      exact absurd hrepair (hnone n)
  · obtain ⟨hop, heq, -⟩ := hpath (preferring n)
    obtain ⟨-, -, hdetour⟩ := (h _ _ heq).1
    simp only [TiLfaEngine.protectionPath, repairNode_preferring hreg hn] at hdetour
    exact (detour_some_iff hn.node hdst).mp hdetour

/-- The protection is right, and the same for every order of iteration, exactly where the
destination cannot be reached or the costs keep the paths over the repair node off the link. -/
theorem protection_iff (e : TiLfaEngine) (hreg : e.Registered) (hcosts : e.CostsBelow)
    (src dst failedNeighbor : String) :
    (∀ (o : HashOrder) path, @TiLfaEngine.computeProtection o e src dst failedNeighbor =
      some (some path) →
      @Protects o e src dst failedNeighbor path ∧
        ∀ o' : HashOrder, @TiLfaEngine.computeProtection o' e src dst failedNeighbor =
          some (some path)) ↔
      (Reaches e (some (src, failedNeighbor)) src dst → Clear e src dst failedNeighbor) := by
  constructor
  · intro h hreach
    exact clear_of_protects hreg hreach h
  · intro h o path hpath
    have hclear := h (@computeProtection_reaches _ _ _ _ _ o hreg hpath)
    exact ⟨@Clear.protects _ _ _ _ _ o hclear hreg hcosts hpath,
      fun o' => hclear.computeProtection_eq hreg o o' hpath⟩

/-! ### Two triangles -/

theorem costsBelow_of_links {links : List (String × String × ℕ)} (h : Links links (e.edges none))
    (hsum : (links.map fun l => l.2.2).sum < 2 ^ 32) : e.CostsBelow := ⟨links, h, hsum⟩

theorem links_new : Links [] (TiLfaEngine.new.edges none) := by
  intro u v k h
  simp [TiLfaEngine.new, TiLfaEngine.edges] at h

/-- The link to the destination is protected by the third node. -/
def cornered : TiLfaEngine :=
  (((((TiLfaEngine.new.addNode "S" 16001).addNode "R" 16002).addNode "D" 16003).addLink "S"
    "D" 5).addLink
    "S" "R" 1).addLink "R" "D" 1

example : cornered.edges none "R" = [("S", 1), ("D", 1)] := by decide +kernel

theorem near_cornered (hu : u ∈ cornered.nodeSids) (hv : v ∈ cornered.nodeSids) :
    ∃ c ≤ 2, Walk (cornered.edges none) u v c := by
  have hnodes : ∀ n ∈ cornered.nodeSids.keys, n = "R" ∨
      ("R", 1) ∈ cornered.edges none n ∧ (n, 1) ∈ cornered.edges none "R" := by decide +kernel
  have hto : ∃ c ≤ 1, Walk (cornered.edges none) u "R" c := by
    rcases hnodes u (AList.mem_keys.mp hu) with rfl | h
    · exact ⟨0, by decide, .refl _⟩
    · exact ⟨1, le_rfl, walk_of_edge h.1⟩
  have hfrom : ∃ c ≤ 1, Walk (cornered.edges none) "R" v c := by
    rcases hnodes v (AList.mem_keys.mp hv) with rfl | h
    · exact ⟨0, by decide, .refl _⟩
    · exact ⟨1, le_rfl, walk_of_edge h.2⟩
  obtain ⟨a, ha, hto⟩ := hto
  obtain ⟨b, hb, hfrom⟩ := hfrom
  exact ⟨a + b, by omega, hto.trans hfrom⟩

/-- The expensive link is on no shortest path. -/
theorem not_over_cornered (hu : u ∈ cornered.nodeSids) (hv : v ∈ cornered.nodeSids) :
    ¬ Over cornered "S" "D" u v := by
  obtain ⟨c', hc', hwalk⟩ := near_cornered hu hv
  have hcost : ∀ l ∈ cornered.links,
      (l.source = "S" ∧ l.target = "D" ∨ l.source = "D" ∧ l.target = "S") → 5 ≤ l.cost := by
    decide +kernel
  rintro (⟨c, k, d, -, hedge, -, hdist⟩ | ⟨c, k, d, -, hedge, -, hdist⟩)
  · obtain ⟨l, hl, hs, -, ht, rfl⟩ := TiLfaEngine.mem_edges.mp hedge
    have := hcost l hl (.inl ⟨hs, ht⟩)
    have := hdist.2 c' hwalk
    omega
  · obtain ⟨l, hl, hs, -, ht, rfl⟩ := TiLfaEngine.mem_edges.mp hedge
    have := hcost l hl (.inr ⟨hs, ht⟩)
    have := hdist.2 c' hwalk
    omega

theorem registered_of_sameSid (h : SameSid e u v) : v ∈ e.nodeSids := by
  obtain ⟨sid, -, hv⟩ := h
  exact AList.lookup_isSome.mp (by rw [hv]; rfl)

theorem protection_iff_cornered :
    ∃ path, @TiLfaEngine.computeProtection latestFirst cornered "S" "D" "D" = some (some path) ∧
      @Protects latestFirst cornered "S" "D" "D" path ∧
      @TiLfaEngine.computeProtection (preferring "D") cornered "S" "D" "D" = some (some path) := by
  have hpath : @TiLfaEngine.computeProtection latestFirst cornered "S" "D" "D" =
      some (some (cornered.protectionPath "S" "D" "D" "R" (some "R"))) := by decide +kernel
  have hreg : ∀ l ∈ cornered.links, l.source ∈ cornered.nodeSids ∧
      l.target ∈ cornered.nodeSids := by
    decide +kernel
  have hcosts : cornered.CostsBelow := costsBelow_of_links (TiLfaEngine.links_addLink
    (TiLfaEngine.links_addLink (TiLfaEngine.links_addLink links_new))) (by decide)
  have hother : ∀ n ∈ cornered.nodeSids.keys, n ≠ "S" → n ≠ "D" → n = "R" := by decide +kernel
  have honly : ∀ n, Candidate cornered "S" "D" "D" n → n = "R" := fun n hn =>
    hother n (AList.mem_keys.mp hn.node) hn.notSource hn.notDestination
  have hS : "S" ∈ cornered.nodeSids := by decide +kernel
  have hclear : Clear cornered "S" "D" "D" :=
    ⟨by decide, fun a b ha hb => by rw [honly a ha, honly b hb],
      fun _ y hy => not_over_cornered hS (registered_of_sameSid hy),
      fun n _ x y hx hy _ _ => ⟨not_over_cornered hS (registered_of_sameSid hx),
        not_over_cornered (registered_of_sameSid hx) (registered_of_sameSid hy)⟩⟩
  obtain ⟨hprotects, hsame⟩ := (protection_iff cornered hreg hcosts "S" "D" "D").mpr
    (fun _ => hclear) latestFirst _ hpath
  exact ⟨_, hpath, hprotects, hsame _⟩

/-- The failed neighbour can be reached the other way round. -/
def rounded : TiLfaEngine :=
  (((((TiLfaEngine.new.addNode "S" 16001).addNode "E" 16002).addNode "D" 16003).addLink "S"
    "E" 10).addLink
    "E" "D" 10).addLink "S" "D" 15

/-- The failed neighbour becomes the repair node, and packets go to it over the failed link. -/
theorem repair_over_failed_link :
    rounded.Registered ∧ rounded.CostsBelow ∧
      ∃ path, @TiLfaEngine.computeProtection latestFirst rounded "S" "D" "E" = some (some path) ∧
        ∃ hops, Steered rounded "S" path.backupSegmentList hops ∧ Crosses "S" "E" hops := by
  have hpath : @TiLfaEngine.computeProtection latestFirst rounded "S" "D" "E" =
      some (some (rounded.protectionPath "S" "D" "E" "D" (some "E"))) := by decide +kernel
  have hreg : ∀ l ∈ rounded.links, l.source ∈ rounded.nodeSids ∧ l.target ∈ rounded.nodeSids := by
    decide +kernel
  have hlast : ∀ {n}, (∀ l ∈ rounded.links, l.target = n → 10 ≤ l.cost) →
      ∀ w j, (n, j) ∈ rounded.edges none w → 10 ≤ j := by
    intro n h w j hedge
    obtain ⟨l, hl, -, -, ht, rfl⟩ := TiLfaEngine.mem_edges.mp hedge
    exact h l hl ht
  have hfirst : ("E", 10) ∈ rounded.edges none "S" := by decide +kernel
  have hsecond : ("D", 10) ∈ rounded.edges none "E" := by decide +kernel
  refine ⟨hreg, costsBelow_of_links (TiLfaEngine.links_addLink
    (TiLfaEngine.links_addLink (TiLfaEngine.links_addLink links_new))) (by decide), _, hpath,
    [("S", "E"), ("E", "D")], ?_, .inl List.mem_cons_self⟩
  have hsids : (rounded.protectionPath "S" "D" "E" "D" (some "E")).backupSegmentList =
      [16002, 16003] := by decide +kernel
  rw [hsids]
  exact .segment (by decide +kernel) (.step (.refl "S") hfirst)
    (isDist_of_edge (by decide) (by simpa using hfirst) (hlast (by decide +kernel)))
    (.segment (by decide +kernel) (.step (.refl "E") hsecond)
      (isDist_of_edge (by decide) (by simpa using hsecond) (hlast (by decide +kernel)))
      (.arrived "D"))

end ToyTcpip.TiLfa
