import ToyTcpip.Lib.Hashed
import ToyTcpip.Lib.ShortestPath

/-! The topology and the distances of `ti_lfa.rs`. -/
namespace ToyTcpip.TiLfa

open Hashed ShortestPath

def u32Max : ℕ := 2 ^ 32 - 1

/-- `u32::saturating_add`. -/
def saturatingAdd (a b : ℕ) : ℕ := min (a + b) u32Max

structure TiLfaLink where
  source : String
  target : String
  cost : ℕ
  deriving DecidableEq

structure TiLfaEngine where
  links : List TiLfaLink
  nodeSids : HashMap String ℕ

/-- Shortest path labels, their predecessors, and the nodes visited, the latest first. -/
structure SpfState where
  dist : HashMap String ℕ
  prev : HashMap String (Option String)
  visited : List String

namespace SpfState

/-- `dist.get(node).copied().unwrap_or(u32::MAX)`. -/
def distOf (st : SpfState) (node : String) : ℕ := (st.dist.lookup node).getD u32Max

/-- `prev.get(node).cloned().flatten()`. -/
def prevOf (st : SpfState) (node : String) : Option String := (st.prev.lookup node).join

def improve (st : SpfState) (u node : String) (alt : ℕ) : SpfState :=
  { st with dist := st.dist.insert node alt, prev := st.prev.insert node (some u) }

def visit (st : SpfState) (u : String) : SpfState := { st with visited := u :: st.visited }

/-- An unvisited node with the least label below `u32::MAX`, the first one of the iteration. -/
def nearest [HashOrder] (st : SpfState) : Option String :=
  ((HashOrder.iter st.dist.entries).foldl
    (fun best e => if e.1 ∉ st.visited ∧ e.2 < best.2 then (some e.1, e.2) else best)
    ((none, u32Max) : Option String × ℕ)).1

end SpfState

/-- One of the directions of the excluded link. -/
def isExcluded (excluded : Option (String × String)) (link : TiLfaLink) : Bool :=
  match excluded with
  | some (exFrom, exTo) =>
    (link.source = exFrom ∧ link.target = exTo) ∨ (link.source = exTo ∧ link.target = exFrom)
  | none => false

namespace TiLfaEngine

def new : TiLfaEngine := ⟨[], ∅⟩

def addNode (e : TiLfaEngine) (name : String) (nodeSid : ℕ) : TiLfaEngine :=
  { e with nodeSids := e.nodeSids.insert name nodeSid }

def addLink (e : TiLfaEngine) (source target : String) (cost : ℕ) : TiLfaEngine :=
  { e with links := e.links ++ [⟨source, target, cost⟩, ⟨target, source, cost⟩] }

/-- The links of a node, without the excluded one. -/
def edges (e : TiLfaEngine) (excluded : Option (String × String)) (u : String) :
    List (String × ℕ) :=
  (e.links.filter fun l => l.source = u ∧ isExcluded excluded l = false).map fun l =>
    (l.target, l.cost)

def relax (excluded : Option (String × String)) (u : String) (st : SpfState) (link : TiLfaLink) :
    SpfState :=
  if link.source = u then
    if isExcluded excluded link then st
    else
      let alt := saturatingAdd (st.distOf u) link.cost
      if alt < st.distOf link.target then st.improve u link.target alt else st
  else st

def relaxAll (excluded : Option (String × String)) (u : String) (st : SpfState)
    (links : List TiLfaLink) : SpfState :=
  links.foldl (relax excluded u) st

variable {e : TiLfaEngine} {excluded : Option (String × String)} {link : TiLfaLink}
  {links : List TiLfaLink} {st : SpfState} {src u v w : String} {c d k : ℕ}

theorem mem_edges :
    (v, k) ∈ e.edges excluded u ↔
      ∃ l ∈ e.links, l.source = u ∧ isExcluded excluded l = false ∧ l.target = v ∧ l.cost = k := by
  simp [edges, and_assoc]

theorem visited_relax : (relax excluded u st link).visited = st.visited := by
  unfold relax
  split_ifs
  · rfl
  · dsimp only
    split_ifs
    · rfl
    · rfl
  · rfl

theorem relaxAll_cons :
    relaxAll excluded u st (link :: links) =
      relaxAll excluded u (relax excluded u st link) links := rfl

theorem visited_relaxAll : (relaxAll excluded u st links).visited = st.visited := by
  induction links generalizing st with
  | nil => rfl
  | cons l links ih => exact ih.trans visited_relax

/-- The loop of `dijkstra`. -/
def visitAll [HashOrder] (e : TiLfaEngine) (excluded : Option (String × String)) (st : SpfState) :
    SpfState :=
  if st.visited.length < e.nodeSids.entries.length then
    match st.nearest with
    | none => st
    | some u => visitAll e excluded (relaxAll excluded u (st.visit u) e.links)
  else st
  termination_by e.nodeSids.entries.length - st.visited.length
  decreasing_by
    rw [visited_relaxAll, SpfState.visit, List.length_cons]
    omega

def start [HashOrder] (e : TiLfaEngine) (src : String) : SpfState where
  dist := (collect (fun _ => true) (fun _ _ => u32Max) e.nodeSids).insert src 0
  prev := collect (fun _ => true) (fun _ _ => none) e.nodeSids
  visited := []

def dijkstra [HashOrder] (e : TiLfaEngine) (src : String) (excluded : Option (String × String)) :
    HashMap String (ℕ × Option String) :=
  let st := e.visitAll excluded (e.start src)
  collect (fun _ => true) (fun node d => (d, st.prevOf node)) st.dist

end TiLfaEngine

variable {e : TiLfaEngine} {excluded : Option (String × String)} {link : TiLfaLink}
  {links : List TiLfaLink} {st : SpfState} {src u v w : String} {c d k : ℕ}

theorem SpfState.distOf_improve :
    (st.improve u v c).distOf w = if w = v then c else st.distOf w := by
  unfold distOf improve
  rw [lookup_insert_of]
  split <;> rfl

theorem SpfState.distOf_improve_le (hlower : c < st.distOf v) :
    (st.improve u v c).distOf w ≤ st.distOf w := by
  rw [distOf_improve]
  split
  · subst w
    exact hlower.le
  · exact le_rfl

theorem SpfState.prevOf_improve :
    (st.improve u v c).prevOf w = if w = v then some u else st.prevOf w := by
  unfold prevOf improve
  rw [lookup_insert_of]
  split <;> rfl

/-- What the scan for the least label has found so far. -/
theorem scan_spec {visited : List String} (es : List (Sigma fun _ : String => ℕ)) :
    let best := es.foldl
      (fun best e => if e.1 ∉ visited ∧ e.2 < best.2 then (some e.1, e.2) else best)
      ((none, u32Max) : Option String × ℕ)
    (∀ e ∈ es, e.1 ∉ visited → best.2 ≤ e.2) ∧ best.2 ≤ u32Max ∧
      (best = (none, u32Max) ∨
        ∃ e ∈ es, e.1 ∉ visited ∧ e.2 < u32Max ∧ best = (some e.1, e.2)) := by
  induction es using List.reverseRecOn with
  | nil => simp
  | append_singleton es e ih =>
    obtain ⟨hall, hle, hbest⟩ := ih
    simp only [List.foldl_append, List.foldl_cons, List.foldl_nil]
    split
    · rename_i hlower
      refine ⟨fun e' he' hnew => ?_, by omega, .inr ⟨e, by simp, hlower.1, by omega, rfl⟩⟩
      rcases List.mem_append.mp he' with he' | he'
      · exact hlower.2.le.trans (hall e' he' hnew)
      · rw [List.mem_singleton.mp he']
    · rename_i hkeep
      refine ⟨fun e' he' hnew => ?_, hle, hbest.imp_right ?_⟩
      · rcases List.mem_append.mp he' with he' | he'
        · exact hall e' he' hnew
        · rw [List.mem_singleton.mp he'] at hnew ⊢
          exact not_lt.mp fun hlt => hkeep ⟨hnew, hlt⟩
      · rintro ⟨e', he', hrest⟩
        exact ⟨e', List.mem_append_left _ he', hrest⟩

theorem SpfState.distOf_eq (h : st.dist.lookup v = some d) : st.distOf v = d := by
  rw [distOf, h, Option.getD_some]

theorem SpfState.nearest_eq_some [HashOrder] (h : st.nearest = some u) :
    u ∉ st.visited ∧ st.distOf u < u32Max ∧ ∀ v ∉ st.visited, st.distOf u ≤ st.distOf v := by
  obtain ⟨hall, -, hbest⟩ := @scan_spec st.visited (HashOrder.iter st.dist.entries)
  rcases hbest with hnone | ⟨⟨n, d⟩, hmem, hnew, hlt, hsome⟩
  · rw [nearest, hnone] at h
    cases h
  · rw [nearest, hsome] at h
    cases h
    rw [hsome] at hall
    have hd : st.distOf n = d := distOf_eq (mem_entries.mp (mem_iter.mp hmem))
    refine ⟨hnew, hd.trans_lt hlt, fun v hv => ?_⟩
    cases hlookup : st.dist.lookup v with
    | none =>
      rw [hd, distOf, hlookup]
      exact hlt.le
    | some d' =>
      rw [hd, distOf_eq hlookup]
      exact hall ⟨v, d'⟩ (mem_iter.mpr (mem_entries.mpr hlookup)) hv

theorem SpfState.nearest_eq_none [HashOrder] (h : st.nearest = none) :
    ∀ v ∉ st.visited, u32Max ≤ st.distOf v := by
  obtain ⟨hall, -, hbest⟩ := @scan_spec st.visited (HashOrder.iter st.dist.entries)
  rcases hbest with hnone | ⟨e, -, -, -, hsome⟩
  · intro v hv
    rw [hnone] at hall
    cases hlookup : st.dist.lookup v with
    | none =>
      rw [distOf, hlookup]
      exact le_rfl
    | some d =>
      rw [distOf_eq hlookup]
      exact hall ⟨v, d⟩ (mem_iter.mpr (mem_entries.mpr hlookup)) hv
  · rw [nearest, hsome] at h
    cases h

/-! ### The tree -/

/-- The labels are the costs of walks along the predecessors; visited nodes have the least labels
and, unless `busy`, can lower no other one. -/
structure Tree (e : TiLfaEngine) (excluded : Option (String × String)) (src : String)
    (busy : Set String) (st : SpfState) : Prop where
  labelled : Labelled (e.edges excluded) src u32Max st.distOf
  bounded : ∀ v, st.distOf v ≤ u32Max
  known : ∀ v, v ∈ e.nodeSids ∨ v = src → ∃ d, st.dist.lookup v = some d
  relaxed : ∀ u ∈ st.visited, u ∉ busy → Relaxed (e.edges excluded) st.distOf u
  ordered : ∀ u ∈ st.visited, ∀ v ∉ st.visited, st.distOf u ≤ st.distOf v
  reached : ∀ u ∈ st.visited, st.distOf u < u32Max
  nodup : st.visited.Nodup
  first : ∀ u ∈ st.visited, src ∈ st.visited
  origin : st.prevOf src = none
  tree : ∀ v, v ≠ src → st.distOf v < u32Max →
    ∃ u ∈ st.visited, st.prevOf v = some u ∧
      ∃ k, (v, k) ∈ e.edges excluded u ∧ st.distOf v = st.distOf u + k
  chain : ∀ v l, (v :: l) <:+ st.visited → v = src ∨ ∃ u ∈ l, st.prevOf v = some u
  direct : ∀ v k, (v, k) ∈ e.edges excluded src → v ≠ src → st.distOf v = k →
    st.distOf v < u32Max → st.prevOf v = some src

theorem tree_start [HashOrder] : Tree e excluded src ∅ (e.start src) := by
  have hdist : ∀ v, (e.start src).distOf v = if v = src then 0 else u32Max := by
    intro v
    unfold SpfState.distOf TiLfaEngine.start
    rw [lookup_insert_of]
    split
    · rfl
    · rw [lookup_collect]
      cases e.nodeSids.lookup v with
      | none => rfl
      | some sid => rfl
  have hsrc : (e.start src).distOf src = 0 := by rw [hdist, if_pos rfl]
  have honly : ∀ v, (e.start src).distOf v < u32Max → v = src := by
    intro v hv
    by_contra hne
    rw [hdist, if_neg hne] at hv
    exact lt_irrefl _ hv
  have hprev : ∀ v, (e.start src).prevOf v = none := by
    intro v
    unfold SpfState.prevOf TiLfaEngine.start
    rw [lookup_collect]
    cases e.nodeSids.lookup v with
    | none => rfl
    | some sid => rfl
  have hvisited : (e.start src).visited = [] := rfl
  refine ⟨⟨hsrc, fun v hv => ?_⟩, fun v => ?_, fun v hv =>
    ?_, by simp [hvisited], by simp [hvisited],
    by simp [hvisited], by simp [hvisited], by simp [hvisited], hprev src,
    fun v hne hv => absurd (honly v hv) hne, fun v l h => ?_, fun v k _ hne _ hv =>
      absurd (honly v hv) hne⟩
  · rw [honly v hv, hsrc]
    exact .refl src
  · rw [hdist]
    split
    · exact Nat.zero_le _
    · exact le_rfl
  · unfold TiLfaEngine.start
    rw [lookup_insert_of]
    split
    · exact ⟨0, rfl⟩
    · rename_i hne
      obtain ⟨sid, hsid⟩ := Option.isSome_iff_exists.mp
        (AList.lookup_isSome.mpr (hv.resolve_right hne))
      rw [lookup_collect, hsid]
      exact ⟨_, rfl⟩
  · rw [hvisited] at h
    cases List.suffix_nil.mp h

/-- A label is lowered along a link of the node that is visited last. -/
theorem Tree.improve (hst : Tree e excluded src {u} st) (hu : u ∈ st.visited)
    (hlast : ∀ w ∈ st.visited, st.distOf w ≤ st.distOf u) (hlink : (v, k) ∈ e.edges excluded u)
    (hlower : st.distOf u + k < st.distOf v) :
    Tree e excluded src {u} (st.improve u v (st.distOf u + k)) := by
  have hle := hst.bounded v
  have hnew : v ∉ st.visited := by
    intro hv
    have := hlast v hv
    omega
  have hvsrc : v ≠ src := by
    rintro rfl
    exact hnew (hst.first u hu)
  have hsame : ∀ w ∈ st.visited, (st.improve u v (st.distOf u + k)).distOf w = st.distOf w := by
    intro w hw
    rw [SpfState.distOf_improve, if_neg fun (heq : w = v) => hnew (heq ▸ hw)]
  have hmono : ∀ w, (st.improve u v (st.distOf u + k)).distOf w ≤ st.distOf w := fun w =>
    SpfState.distOf_improve_le hlower
  refine ⟨⟨?_, fun w hw => ?_⟩, fun w => (hmono w).trans (hst.bounded w), fun w hw => ?_,
    fun w hw hbusy x j hx => ?_, fun w hw x hx => ?_, fun w hw => ?_, hst.nodup, hst.first, ?_,
    fun w hne hw => ?_, fun w l h => ?_, fun w j hw hne heq hlt => ?_⟩
  · rw [hsame src (hst.first u hu), hst.labelled.source]
  · rw [SpfState.distOf_improve] at hw ⊢
    split_ifs at hw ⊢ with heq
    · subst w
      exact (hst.labelled.walk u (hst.reached u hu)).step hlink
    · exact hst.labelled.walk w hw
  · unfold SpfState.improve
    rw [lookup_insert_of]
    split
    · exact ⟨_, rfl⟩
    · exact hst.known w hw
  · rw [hsame w hw]
    exact (hmono x).trans (hst.relaxed w hw hbusy x j hx)
  · rw [hsame w hw, SpfState.distOf_improve]
    split
    · exact (hlast w hw).trans (Nat.le_add_right _ _)
    · exact hst.ordered w hw x hx
  · rw [hsame w hw]
    exact hst.reached w hw
  · rw [SpfState.prevOf_improve, if_neg hvsrc.symm]
    exact hst.origin
  · by_cases heq : w = v
    · subst w
      rw [SpfState.prevOf_improve, if_pos rfl, SpfState.distOf_improve, if_pos rfl]
      exact ⟨u, hu, rfl, k, hlink, by rw [hsame u hu]⟩
    · rw [SpfState.distOf_improve, if_neg heq] at hw
      rw [SpfState.prevOf_improve, if_neg heq, SpfState.distOf_improve, if_neg heq]
      obtain ⟨p, hp, hprev, j, hj, heq'⟩ := hst.tree w hne hw
      exact ⟨p, hp, hprev, j, hj, by rw [hsame p hp, heq']⟩
  · have hw : w ∈ st.visited := h.subset List.mem_cons_self
    rw [SpfState.prevOf_improve, if_neg fun (heq : w = v) => hnew (heq ▸ hw)]
    exact hst.chain w l h
  · rw [SpfState.prevOf_improve]
    rw [SpfState.distOf_improve] at heq hlt
    split_ifs at heq hlt ⊢ with hwv
    · subst w
      by_cases husrc : u = src
      · rw [husrc]
      · -- the source has been relaxed, so its link to `v` costs no less than the old label
        have := hst.relaxed src (hst.first u hu) (fun h => husrc h.symm) v j hw
        rw [hst.labelled.source] at this
        omega
    · exact hst.direct w j hw hne heq hlt

/-- A link is passed over, or its end is lowered to the sum. -/
theorem relax_cases (hbound : st.distOf link.target ≤ u32Max) :
    TiLfaEngine.relax excluded u st link = st ∧
        (link.source = u → isExcluded excluded link = false →
          st.distOf link.target ≤ st.distOf u + link.cost) ∨
      link.source = u ∧ isExcluded excluded link = false ∧
        st.distOf u + link.cost < st.distOf link.target ∧
        TiLfaEngine.relax excluded u st link =
          st.improve u link.target (st.distOf u + link.cost) := by
  unfold TiLfaEngine.relax
  split_ifs with hsource hexcluded
  · exact .inl ⟨rfl, fun _ h => absurd hexcluded (by rw [h]; decide)⟩
  · dsimp only
    split_ifs with hlower
    · have hsum : saturatingAdd (st.distOf u) link.cost = st.distOf u + link.cost := by
        unfold saturatingAdd at hlower ⊢
        omega
      rw [hsum] at hlower ⊢
      exact .inr ⟨hsource, by simpa using hexcluded, hlower, rfl⟩
    · refine .inl ⟨rfl, fun _ _ => ?_⟩
      unfold saturatingAdd at hlower
      omega
  · exact .inl ⟨rfl, fun h => absurd h hsource⟩

/-- The links of the node that is visited last. -/
theorem Tree.relaxAll (hst : Tree e excluded src {u} st) (hu : u ∈ st.visited)
    (hlast : ∀ w ∈ st.visited, st.distOf w ≤ st.distOf u) (hlinks : ∀ l ∈ links, l ∈ e.links) :
    Tree e excluded src {u} (TiLfaEngine.relaxAll excluded u st links) ∧
      (TiLfaEngine.relaxAll excluded u st links).distOf u = st.distOf u ∧
      (∀ v, (TiLfaEngine.relaxAll excluded u st links).distOf v ≤ st.distOf v) ∧
      ∀ l ∈ links, l.source = u → isExcluded excluded l = false →
        (TiLfaEngine.relaxAll excluded u st links).distOf l.target ≤ st.distOf u + l.cost := by
  induction links generalizing st with
  | nil => exact ⟨hst, rfl, fun _ => le_rfl, by simp⟩
  | cons l links ih =>
    have hlinks' := fun l hl => hlinks l (List.mem_cons_of_mem _ hl)
    rw [TiLfaEngine.relaxAll_cons]
    rcases @relax_cases excluded l st u (hst.bounded l.target) with
      ⟨heq, hkeep⟩ | ⟨hsource, hfree, hlower, heq⟩
    · rw [heq]
      obtain ⟨hst', hsame, hmono, hall⟩ := ih hst hu hlast hlinks'
      exact ⟨hst', hsame, hmono, List.forall_mem_cons.mpr
        ⟨fun h h' => (hmono _).trans (hkeep h h'), hall⟩⟩
    · rw [heq]
      have hlink : (l.target, l.cost) ∈ e.edges excluded u :=
        TiLfaEngine.mem_edges.mpr ⟨l, hlinks l List.mem_cons_self, hsource, hfree, rfl, rfl⟩
      have hnew : l.target ∉ st.visited := by
        intro hmem
        have := hlast _ hmem
        omega
      have hdist : ∀ w ∈ st.visited,
          (st.improve u l.target (st.distOf u + l.cost)).distOf w = st.distOf w := by
        intro w hw
        rw [SpfState.distOf_improve, if_neg fun (h : w = l.target) => hnew (h ▸ hw)]
      have hlast' : ∀ w ∈ st.visited, (st.improve u l.target (st.distOf u + l.cost)).distOf w ≤
          (st.improve u l.target (st.distOf u + l.cost)).distOf u := by
        intro w hw
        rw [hdist w hw, hdist u hu]
        exact hlast w hw
      obtain ⟨hst', hsame, hmono, hall⟩ := ih (hst.improve hu hlast hlink hlower) hu hlast' hlinks'
      rw [hdist u hu] at hsame hall
      refine ⟨hst', hsame, fun v => (hmono v).trans (SpfState.distOf_improve_le hlower),
        List.forall_mem_cons.mpr ⟨fun _ _ => (hmono _).trans ?_, hall⟩⟩
      rw [SpfState.distOf_improve, if_pos rfl]

/-- The nearest node is visited next. -/
theorem Tree.visit (hst : Tree e excluded src ∅ st) (hnew : u ∉ st.visited)
    (hu : st.distOf u < u32Max) (hleast : ∀ v ∉ st.visited, st.distOf u ≤ st.distOf v) :
    Tree e excluded src {u} (st.visit u) where
  labelled := hst.labelled
  bounded := hst.bounded
  known := hst.known
  relaxed w hw hbusy := by
    rcases List.mem_cons.mp hw with rfl | hw
    · exact absurd rfl hbusy
    · exact hst.relaxed w hw (by simp)
  ordered w hw v hv := by
    rcases List.mem_cons.mp hw with rfl | hw
    · exact hleast v fun h => hv (List.mem_cons_of_mem _ h)
    · exact hst.ordered w hw v fun h => hv (List.mem_cons_of_mem _ h)
  reached w hw := by
    rcases List.mem_cons.mp hw with rfl | hw
    · exact hu
    · exact hst.reached w hw
  nodup := List.nodup_cons.mpr ⟨hnew, hst.nodup⟩
  first w hw := by
    rcases List.mem_cons.mp hw with rfl | hw
    · by_cases hsrc : w = src
      · exact hsrc ▸ List.mem_cons_self
      · obtain ⟨p, hp, -⟩ := hst.tree w hsrc hu
        exact List.mem_cons_of_mem _ (hst.first p hp)
    · exact List.mem_cons_of_mem _ (hst.first w hw)
  origin := hst.origin
  tree v hne hv := by
    obtain ⟨p, hp, hrest⟩ := hst.tree v hne hv
    exact ⟨p, List.mem_cons_of_mem _ hp, hrest⟩
  chain v l h := by
    rcases List.suffix_cons_iff.mp h with heq | h
    · cases heq
      by_cases hsrc : u = src
      · exact .inl hsrc
      · obtain ⟨p, hp, hprev, -⟩ := hst.tree u hsrc hu
        exact .inr ⟨p, hp, hprev⟩
    · exact hst.chain v l h
  direct := hst.direct

/-- One turn of the loop. -/
theorem Tree.turn [HashOrder] (hst : Tree e excluded src ∅ st) (h : st.nearest = some u) :
    Tree e excluded src ∅ (TiLfaEngine.relaxAll excluded u (st.visit u) e.links) := by
  obtain ⟨hnew, hu, hleast⟩ := SpfState.nearest_eq_some h
  have hlast : ∀ w ∈ (st.visit u).visited, (st.visit u).distOf w ≤ (st.visit u).distOf u := by
    intro w hw
    rcases List.mem_cons.mp hw with rfl | hw
    · exact le_rfl
    · exact hst.ordered w hw u hnew
  obtain ⟨hst', hsame, -, hall⟩ :=
    (hst.visit hnew hu hleast).relaxAll List.mem_cons_self hlast fun _ => id
  refine { hst' with relaxed := fun w hw _ v k hv => ?_ }
  by_cases heq : w = u
  · subst heq
    rw [hsame]
    obtain ⟨l, hl, hsource, hfree, rfl, rfl⟩ := TiLfaEngine.mem_edges.mp hv
    exact hall l hl hsource hfree
  · exact hst'.relaxed w hw heq v k hv

/-- Both ends of every link are nodes. -/
def TiLfaEngine.Registered (e : TiLfaEngine) : Prop :=
  ∀ l ∈ e.links, l.source ∈ e.nodeSids ∧ l.target ∈ e.nodeSids

theorem mem_of_walk (hreg : e.Registered) (hsrc : src ∈ e.nodeSids)
    (h : Walk (e.edges excluded) src v c) : v ∈ e.nodeSids := by
  cases h with
  | refl => exact hsrc
  | step _ last =>
    obtain ⟨l, hl, -, -, rfl, -⟩ := TiLfaEngine.mem_edges.mp last
    exact (hreg l hl).2

theorem eq_of_walk (hreg : e.Registered) (hsrc : src ∉ e.nodeSids)
    (h : Walk (e.edges excluded) src v c) : v = src := by
  induction h with
  | refl => rfl
  | step _ last ih =>
    subst ih
    obtain ⟨l, hl, rfl, -⟩ := TiLfaEngine.mem_edges.mp last
    exact absurd (hreg l hl).1 hsrc

/-- When as many nodes are visited as there are, all that have a label are. -/
theorem Tree.mem_visited (hst : Tree e excluded src ∅ st) (hreg : e.Registered)
    (hsrc : src ∈ e.nodeSids) (hall : e.nodeSids.entries.length ≤ st.visited.length)
    (hv : st.distOf v < u32Max) : v ∈ st.visited := by
  have hsub : st.visited ⊆ e.nodeSids.keys := fun w hw =>
    AList.mem_keys.mp (mem_of_walk hreg hsrc (hst.labelled.walk w (hst.reached w hw)))
  have hperm : st.visited.Perm e.nodeSids.keys := by
    refine (List.subperm_of_subset hst.nodup hsub).perm_of_length_le ?_
    rw [AList.keys, List.keys, List.length_map]
    exact hall
  exact hperm.mem_iff.mpr (AList.mem_keys.mp (mem_of_walk hreg hsrc (hst.labelled.walk v hv)))

/-- When the loop ends, all that have a label are visited, but for a source that is no node. -/
theorem tree_visitAll [HashOrder] (hreg : e.Registered) (hst : Tree e excluded src ∅ st) :
    Tree e excluded src ∅ (e.visitAll excluded st) ∧
      ∀ u, (e.visitAll excluded st).distOf u < u32Max →
        u ∈ (e.visitAll excluded st).visited ∨ u = src ∧ src ∉ e.nodeSids := by
  induction hn : e.nodeSids.entries.length - st.visited.length using Nat.strong_induction_on
    generalizing st with
  | h n ih =>
    rw [TiLfaEngine.visitAll]
    split_ifs with hmore
    · cases hnearest : st.nearest with
      | none =>
        refine ⟨hst, fun u hu => .inl ?_⟩
        by_contra hmem
        exact absurd hu (not_lt.mpr (SpfState.nearest_eq_none hnearest u hmem))
      | some u =>
        refine ih _ ?_ (hst.turn hnearest) rfl
        rw [TiLfaEngine.visited_relaxAll, SpfState.visit, List.length_cons]
        omega
    · refine ⟨hst, fun u hu => ?_⟩
      by_cases hsrc : src ∈ e.nodeSids
      · exact .inl (hst.mem_visited hreg hsrc (not_lt.mp hmore) hu)
      · exact .inr ⟨eq_of_walk hreg hsrc (hst.labelled.walk u hu), hsrc⟩

/-! ### Distances -/

/-- The links, in one of their directions, cost less than `2 ^ 32` together. -/
def TiLfaEngine.CostsBelow (e : TiLfaEngine) : Prop :=
  ∃ links, Links links (e.edges none) ∧ (links.map fun l => l.2.2).sum < 2 ^ 32

theorem TiLfaEngine.links_addLink {links : List (String × String × ℕ)}
    (h : Links links (e.edges none)) :
    Links ((u, v, c) :: links) ((e.addLink u v c).edges none) := by
  intro x y k hedge
  obtain ⟨l, hl, rfl, hfree, rfl, rfl⟩ := mem_edges.mp hedge
  rcases List.mem_append.mp hl with hl | hl
  · exact (h _ _ _ (mem_edges.mpr ⟨l, hl, rfl, hfree, rfl, rfl⟩)).imp
      (List.mem_cons_of_mem _) (List.mem_cons_of_mem _)
  · simp only [List.mem_cons, List.not_mem_nil, or_false] at hl
    rcases hl with rfl | rfl
    · exact .inl List.mem_cons_self
    · exact .inr List.mem_cons_self

theorem TiLfaEngine.CostsBelow.dist_le (hcosts : e.CostsBelow)
    (h : IsDist (e.edges excluded) u v d) : d ≤ u32Max := by
  obtain ⟨links, hlinks, hsum⟩ := hcosts
  have hsub : Links links (e.edges excluded) := by
    intro x y k hedge
    obtain ⟨l, hl, hsource, -, htarget, hcost⟩ := mem_edges.mp hedge
    exact hlinks x y k (mem_edges.mpr ⟨l, hl, hsource, rfl, htarget, hcost⟩)
  have := h.le_sum hsub
  unfold u32Max
  omega

/-- The state in which `dijkstra` leaves its loop. -/
def TiLfaEngine.settled [HashOrder] (e : TiLfaEngine) (src : String)
    (excluded : Option (String × String)) : SpfState := e.visitAll excluded (e.start src)

theorem tree_settled [HashOrder] (hreg : e.Registered) :
    Tree e excluded src ∅ (e.settled src excluded) := (tree_visitAll hreg tree_start).1

theorem mem_visited_settled [HashOrder] (hreg : e.Registered) (hne : v ≠ src)
    (hv : (e.settled src excluded).distOf v < u32Max) : v ∈ (e.settled src excluded).visited :=
  ((tree_visitAll hreg tree_start).2 v hv).resolve_right fun h => hne h.1

theorem isDist_settled [HashOrder] (hreg : e.Registered) (hd : d < u32Max) :
    IsDist (e.edges excluded) src v d ↔ (e.settled src excluded).distOf v = d := by
  have hst := @tree_settled e excluded src _ hreg
  refine isDist_iff hst.labelled (fun u hu => ?_) hd
  rcases (tree_visitAll hreg tree_start).2 u hu with hmem | ⟨rfl, hsrc⟩
  · exact hst.relaxed u hmem (by simp)
  · -- a source that is no node has no links
    intro v k hv
    obtain ⟨l, hl, rfl, -⟩ := TiLfaEngine.mem_edges.mp hv
    exact absurd (hreg l hl).1 hsrc

theorem lookup_dijkstra [HashOrder] :
    (e.dijkstra src excluded).lookup v = ((e.settled src excluded).dist.lookup v).map
      fun d => (d, (e.settled src excluded).prevOf v) := by
  simp only [TiLfaEngine.dijkstra, TiLfaEngine.settled, lookup_collect, if_true]

theorem lookup_dijkstra_of_lt [HashOrder] (hv : (e.settled src excluded).distOf v < u32Max) :
    (e.dijkstra src excluded).lookup v =
      some ((e.settled src excluded).distOf v, (e.settled src excluded).prevOf v) := by
  rw [lookup_dijkstra]
  cases h : (e.settled src excluded).dist.lookup v with
  | none =>
    rw [SpfState.distOf, h] at hv
    exact absurd hv (lt_irrefl _)
  | some d => rw [SpfState.distOf_eq h, Option.map_some]

theorem distOf_of_lookup [HashOrder] {p : Option String}
    (h : (e.dijkstra src excluded).lookup v = some (d, p)) :
    (e.settled src excluded).distOf v = d ∧ (e.settled src excluded).prevOf v = p := by
  rw [lookup_dijkstra] at h
  obtain ⟨d', hd, heq⟩ := Option.map_eq_some_iff.mp h
  cases heq
  exact ⟨SpfState.distOf_eq hd, rfl⟩

/-- The labels are the distances, and `u32::MAX` where there is no way. -/
def Distances (edges : String → List (String × ℕ)) (src : String)
    (res : HashMap String (ℕ × Option String)) : Prop :=
  (∀ v c, IsDist edges src v c → ∃ p, res.lookup v = some (c, p)) ∧
  ∀ v c p, res.lookup v = some (c, p) → IsDist edges src v c ∨
    c = u32Max ∧ ¬ ∃ c', Walk edges src v c'

theorem distances_dijkstra [HashOrder] (hreg : e.Registered) (hcosts : e.CostsBelow) :
    Distances (e.edges excluded) src (e.dijkstra src excluded) := by
  have hst := @tree_settled e excluded src _ hreg
  have hlabel : ∀ v c, IsDist (e.edges excluded) src v c →
      (e.settled src excluded).distOf v = c := by
    intro v c hc
    rcases (hcosts.dist_le hc).lt_or_eq with hlt | rfl
    · exact (isDist_settled hreg hlt).mp hc
    · rcases (hst.bounded v).lt_or_eq with hlt | heq
      · exact ((isDist_settled hreg hlt).mpr rfl).eq hc
      · exact heq
  constructor
  · intro v c hc
    have hmem : v ∈ e.nodeSids ∨ v = src := by
      by_cases hsrc : src ∈ e.nodeSids
      · exact .inl (mem_of_walk hreg hsrc hc.1)
      · exact .inr (eq_of_walk hreg hsrc hc.1)
    obtain ⟨d, hd⟩ := hst.known v hmem
    rw [lookup_dijkstra, hd, ← hlabel v c hc, SpfState.distOf_eq hd]
    exact ⟨_, rfl⟩
  · intro v c p hres
    have hc := (distOf_of_lookup hres).1
    by_cases hwalk : ∃ c', Walk (e.edges excluded) src v c'
    · obtain ⟨c', hwalk⟩ := hwalk
      obtain ⟨d, -, hd⟩ := exists_dist hwalk
      rw [← hc, hlabel v d hd]
      exact .inl hd
    · refine .inr ⟨?_, hwalk⟩
      rcases (hst.bounded v).lt_or_eq with hlt | heq
      · exact absurd ⟨_, hst.labelled.walk v hlt⟩ hwalk
      · rw [← hc, heq]

end ToyTcpip.TiLfa
