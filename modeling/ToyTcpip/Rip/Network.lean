import ToyTcpip.Lib.DistanceVector
import ToyTcpip.Lib.Machine
import ToyTcpip.Rip.Engine

/-! A network of RIP engines: no loops, and no metric below the distance. -/
namespace ToyTcpip.Rip

open Routing DistanceVector

/-- Who hears whom, under which address and on which interface, and which networks each node is
on. The neighbours of a node have distinct addresses. -/
structure Topology (N : Type*) where
  graph : SimpleGraph N
  networks : N → List (Net × String)
  address : N → N → Ipv4Address
  interface : N → N → String
  canonical : ∀ v, ∀ n ∈ networks v, Canonical n.1
  address_injective : ∀ v u u', graph.Adj u v → graph.Adj u' v →
    address u v = address u' v → u = u'

/-- All engines, and every advertisement that was ever sent. -/
structure Network (N : Type*) where
  engine : N → RipEngine
  sent : List (N × RipPacket)

inductive Exchange (N : Type*) where
  | advertise (u : N)
  | deliver (u : N) (pkt : RipPacket) (v : N)

namespace Topology

variable {N : Type*} (topo : Topology N)

def start : Network N :=
  ⟨fun v => (topo.networks v).foldl (fun e n => e.addLocalNetwork n.1 n.2) .new, []⟩

def Home (v : N) (p : Net) : Prop := p ∈ (topo.networks v).map Prod.fst

/-- Hops to the nearest node on the network. -/
noncomputable def hopDistance (v : N) (p : Net) : ℕ∞ :=
  ⨅ (w : N) (_ : topo.Home w p), topo.graph.edist v w

def step [DecidableEq N] (net : Network N) : Exchange N → Network N
  | .advertise u => { net with sent := (u, (net.engine u).buildAdvertisement) :: net.sent }
  | .deliver u pkt v =>
    { net with
      engine := Function.update net.engine v
        ((net.engine v).processAdvertisement (topo.address u v) pkt (topo.interface v u)).1 }

/-- A neighbour hears what was sent, late, repeatedly or never. -/
def Possible (net : Network N) : Exchange N → Prop
  | .advertise _ => True
  | .deliver u pkt v => (u, pkt) ∈ net.sent ∧ topo.graph.Adj u v

/-- `u` is the gateway of `v` for the prefix. -/
def GatewayFor (net : Network N) (p : Net) (v u : N) : Prop :=
  topo.graph.Adj u v ∧ ∃ r ∈ (net.engine v).routes.routes, r.key = p ∧
    r.gateway = some (topo.address u v)

/-- `v` forwards packets for the address to `u`. -/
def Forwards (net : Network N) (ip : Ipv4Address) (v u : N) : Prop :=
  topo.graph.Adj u v ∧ ∃ r, (net.engine v).routes.lookup ip = some r ∧
    r.gateway = some (topo.address u v)

/-- The engines' metrics and gateways are those of the abstract network. -/
structure Refines (net : Network N) (s : State N Net) : Prop where
  coherent : ∀ v, (net.engine v).Coherent
  cost : ∀ v p m, (p, m) ∈ (net.engine v).routeMetrics ↔ s.cost v p = some m
  via : ∀ v, ∀ r ∈ (net.engine v).routes.routes,
    r.gateway = (s.via v r.key).map fun u => topo.address u v
  sound : Sound topo.graph topo.Home s
  bounded : ∀ v p m, s.cost v p = some m → 1 ≤ m ∧ m ≤ 15
  told : ∀ m ∈ net.sent, ∀ entry ∈ m.2.entries, entry.addressFamily = ripAfiIpv4 ∧
    entry.metric ≤ 15 ∧ s.Told m.1 (RipEngine.netOf entry) entry.metric

variable {topo} {net : Network N} {s : State N Net} {u v : N} {p : Net} {pkt : RipPacket}

theorem fresh_start (v : N) : RipEngine.Fresh (topo.networks v) (topo.start.engine v) := by
  have hfold : ∀ (rest known : List (Net × String)) (e : RipEngine), RipEngine.Fresh known e →
      (∀ n ∈ rest, Canonical n.1) →
      RipEngine.Fresh (known ++ rest) (rest.foldl (fun e n => e.addLocalNetwork n.1 n.2) e) := by
    intro rest
    induction rest with
    | nil =>
      intro known e he _
      simpa using he
    | cons n rest ih =>
      intro known e he hrest
      have hn := hrest n List.mem_cons_self
      have := ih (known ++ [n]) _ (he.addLocalNetwork hn n.2)
        (fun m hm => hrest m (List.mem_cons_of_mem n hm))
      simpa using this
  exact hfold (topo.networks v) [] .new RipEngine.fresh_new (topo.canonical v)

theorem refines_start : ∃ s, topo.Refines topo.start s := by
  classical
  have hcost : ∀ v p m, (p, m) ∈ (topo.start.engine v).routeMetrics ↔
      (if topo.Home v p then some 1 else none) = some m := by
    intro v p m
    rw [(fresh_start v).local_iff]
    split_ifs with hp
    · constructor
      · rintro ⟨rfl, -⟩
        rfl
      · intro hm
        exact ⟨(Option.some.inj hm).symm, hp⟩
    · constructor
      · rintro ⟨-, hmem⟩
        exact absurd hmem hp
      · intro hm
        cases hm
  refine ⟨⟨fun v p => if topo.Home v p then some 1 else none, fun _ _ => none⟩,
    fun v => (fresh_start v).toCoherent, hcost, ?_, ⟨?_, ?_, ?_⟩, ?_, ?_⟩
  · intro v r hr
    exact (fresh_start v).onLink r hr
  · intro v p m hm
    dsimp only at hm
    split_ifs at hm with hp
    obtain rfl := Option.some.inj hm
    exact ⟨v, hp, by simp⟩
  · intro v p m hm _
    dsimp only at hm
    split_ifs at hm with hp
    exact hp
  · intro v p u hvia
    cases hvia
  · intro v p m hm
    dsimp only at hm
    split_ifs at hm
    obtain rfl := Option.some.inj hm
    omega
  · intro m hm
    cases hm

variable [DecidableEq N]

def withEngine (net : Network N) (v : N) (e : RipEngine) : Network N :=
  { net with engine := Function.update net.engine v e }

omit [DecidableEq N] in
theorem Refines.canonical_told (h : topo.Refines net s) {k : ℕ} (htold : s.Told u p k) :
    Canonical p := by
  obtain ⟨m, -, hm⟩ := htold
  exact (h.coherent u).canonical p m ((h.cost u p m).mpr hm)

/-- An entry that changes the engine is an adoption. -/
theorem Refines.learn (h : topo.Refines net s) (hadj : topo.graph.Adj u v) {entry : RipEntry}
    (hmetric : entry.metric ≤ 15) (htold : s.Told u (RipEngine.netOf entry) entry.metric)
    {e : RipEngine}
    (he : RipEngine.processEntry (topo.address u v) (topo.interface v u) (net.engine v) entry =
      some e) :
    topo.Refines (withEngine net v e) (s.adopt v (RipEngine.netOf entry) u entry.metric) := by
  generalize hp : RipEngine.netOf entry = p at htold ⊢
  have hwrap : (entry.metric + 1) % 2 ^ 32 = entry.metric + 1 := Nat.mod_eq_of_lt (by omega)
  rw [RipEngine.processEntry, hwrap, hp] at he
  split_ifs at he with hfamily hinfinite
  simp only [ripInfinityMetric] at hinfinite he
  rw [min_eq_left (by omega)] at he
  have hcanonical := h.canonical_told htold
  obtain ⟨rfl, hbetter⟩ := RipEngine.learn_cases (h.coherent v).once he
  obtain ⟨-, hmem⟩ := RipEngine.improve (h.coherent v).once (by omega) hbetter
  have himproves : s.Improves v p (entry.metric + 1) :=
    fun m hm => hbetter m ((h.cost v p m).mpr hm)
  refine ⟨?_, ?_, ?_, h.sound.adopt hadj htold himproves, ?_, ?_⟩
  · intro w
    by_cases hw : w = v
    · subst hw
      simpa [withEngine] using (h.coherent w).install hcanonical (by omega) hbetter
    · simpa [withEngine, hw] using h.coherent w
  · intro w q m
    by_cases hw : w = v
    · subst hw
      simp only [withEngine, Function.update_self, cost_adopt, true_and]
      rw [RipEngine.install, hmem]
      split_ifs
      · rw [Option.some.injEq, eq_comm]
      · exact h.cost w q m
    · simpa [withEngine, hw] using h.cost w q m
  · intro w r hr
    by_cases hw : w = v
    · subst hw
      simp only [withEngine, Function.update_self, RipEngine.install] at hr
      rcases (RipEngine.mem_addRoute (h.coherent w).tidy hcanonical).mp hr with rfl | ⟨hr, hne⟩
      · rw [RipEngine.key_routeOf hcanonical, via_adopt, if_pos ⟨rfl, rfl⟩]
        rfl
      · simpa [hne] using h.via w r hr
    · simpa [withEngine, hw] using h.via w r (by simpa [withEngine, hw] using hr)
  · intro w q m hm
    rw [cost_adopt] at hm
    split_ifs at hm
    · obtain rfl := Option.some.inj hm
      omega
    · exact h.bounded w q m hm
  · intro m hm entry' hentry
    obtain ⟨hfamily, hle, htold'⟩ := h.told m hm entry' hentry
    exact ⟨hfamily, hle, told_adopt himproves htold'⟩

theorem Refines.deliver (h : topo.Refines net s) (hpkt : (u, pkt) ∈ net.sent)
    (hadj : topo.graph.Adj u v) : ∃ s, topo.Refines (topo.step net (.deliver u pkt v)) s := by
  have hfold : ∀ f : RipEngine × ℕ → RipEntry → RipEngine × ℕ,
      (∀ e updated entry, f (e, updated) entry =
        (RipEngine.processEntry (topo.address u v) (topo.interface v u) e entry).elim (e, updated)
          fun e' => (e', updated + 1)) →
      ∀ (entries : List RipEntry) (net' : Network N) (updated : ℕ),
      (∀ entry ∈ entries, entry ∈ pkt.entries) → net'.sent = net.sent →
      (∃ s, topo.Refines net' s) →
      ∃ s, topo.Refines (withEngine net' v (entries.foldl f (net'.engine v, updated)).1) s := by
    intro f hf entries
    induction entries with
    | nil =>
      rintro net' updated - - hs
      simpa [withEngine] using hs
    | cons entry rest ih =>
      rintro net' updated hentries hsent ⟨s, hs⟩
      have hrest := fun e he => hentries e (List.mem_cons_of_mem entry he)
      rw [List.foldl_cons, hf]
      cases he : RipEngine.processEntry (topo.address u v) (topo.interface v u) (net'.engine v)
        entry with
      | some e =>
        obtain ⟨-, hmetric, htold⟩ :=
          hs.told (u, pkt) (hsent ▸ hpkt) entry (hentries entry List.mem_cons_self)
        have := ih (withEngine net' v e) (updated + 1) hrest hsent
          ⟨_, hs.learn hadj hmetric htold he⟩
        simpa [withEngine] using this
      | none => simpa using ih net' updated hrest hsent ⟨s, hs⟩
  refine hfold _ ?_ pkt.entries net 0 (fun _ he => he) rfl ⟨s, h⟩
  intro e updated entry
  dsimp only
  cases RipEngine.processEntry (topo.address u v) (topo.interface v u) e entry with
  | some e' => rfl
  | none => rfl

theorem Refines.advertise (h : topo.Refines net s) :
    topo.Refines (topo.step net (.advertise u)) s := by
  refine ⟨h.coherent, h.cost, h.via, h.sound, h.bounded, ?_⟩
  intro m hm entry hentry
  rcases List.mem_cons.mp hm with rfl | hm
  · obtain ⟨⟨p, k⟩, hpk, rfl⟩ := List.mem_map.mp hentry
    have hcost := (h.cost u p k).mp hpk
    rw [RipEngine.netOf_advertised ((h.coherent u).canonical p k hpk)]
    exact ⟨rfl, (h.bounded u p k hcost).2, k, le_rfl, hcost⟩
  · exact h.told m hm entry hentry

theorem refines_step {x : Exchange N} (h : ∃ s, topo.Refines net s)
    (hx : topo.Possible net x) : ∃ s, topo.Refines (topo.step net x) s := by
  obtain ⟨s, h⟩ := h
  cases x with
  | advertise u => exact ⟨s, h.advertise⟩
  | deliver u pkt v => exact h.deliver hx.1 hx.2

omit [DecidableEq N]

/-! ### Following gateways -/

theorem Refines.gatewayFor_iff (h : topo.Refines net s) :
    topo.GatewayFor net p v u ↔ s.Hop p v u := by
  constructor
  · rintro ⟨hadj, r, hr, rfl, hgateway⟩
    rw [h.via v r hr, Option.map_eq_some_iff] at hgateway
    obtain ⟨u', hu', haddress⟩ := hgateway
    obtain ⟨hadj', -⟩ := h.sound.parent v r.key u' hu'
    rwa [topo.address_injective v u u' hadj hadj' haddress.symm]
  · intro hvia
    obtain ⟨hadj, m, -, hm, -, -⟩ := h.sound.parent v p u hvia
    obtain ⟨r, hr, rfl⟩ := (h.coherent v).covered p m ((h.cost v p m).mpr hm)
    exact ⟨hadj, r, hr, rfl, by rw [h.via v r hr, hvia, Option.map_some]⟩

theorem lookup_mem {t : RoutingTable} {ip : Ipv4Address} {r : RouteEntry}
    (hr : t.lookup ip = some r) : r ∈ t.routes ∧ r.matchesAddr ip = true :=
  ⟨List.mem_of_find?_eq_some hr, List.find?_some (p := fun r : RouteEntry => r.matchesAddr ip) hr⟩

/-- The longer the prefix and the smaller its metric, the nearer the address. -/
def rank (net : Network N) (s : State N Net) (ip : Ipv4Address) (v : N) : ℕ :=
  match (net.engine v).routes.lookup ip with
  | some r => 16 * (32 - r.prefixLen) + (s.cost v r.key).getD 0
  | none => 0

/-- The next hop has a route for the address too, and is nearer. -/
theorem Refines.forwards (h : topo.Refines net s) {ip : Ipv4Address}
    (hvu : topo.Forwards net ip v u) :
    (∃ r, (net.engine u).routes.lookup ip = some r) ∧ rank net s ip u < rank net s ip v := by
  obtain ⟨hadj, r, hlookup, hgateway⟩ := hvu
  obtain ⟨hr, hmatch⟩ := lookup_mem hlookup
  have hhop : s.Hop r.key v u := h.gatewayFor_iff.mp ⟨hadj, r, hr, rfl, hgateway⟩
  obtain ⟨-, m, m', hm, hm', hlt⟩ := h.sound.parent v r.key u hhop
  have htidy := (h.coherent v).tidy
  have htidy' := (h.coherent u).tidy
  obtain ⟨r₁, hr₁, hkey⟩ := (h.coherent u).covered r.key m' ((h.cost u _ m').mpr hm')
  have hmatch₁ := htidy.matches_of_key htidy' hr hr₁ hkey.symm hmatch
  cases hlookup' : (net.engine u).routes.lookup ip with
  | none =>
    have := List.find?_eq_none.mp hlookup' r₁ hr₁
    exact absurd hmatch₁ this
  | some r' =>
    refine ⟨⟨r', rfl⟩, ?_⟩
    obtain ⟨hr', hmatch'⟩ := lookup_mem hlookup'
    have hbest := Ranked.find?_best htidy'.sorted hlookup'
    have hlen : r.prefixLen = r₁.prefixLen := by
      have hkeys : r.key.2 = r₁.key.2 := by rw [hkey]
      exact hkeys
    have hlonger := hbest.longest r₁ hr₁ hmatch₁
    have hbound := (htidy'.built r' hr').1
    obtain ⟨c, hc⟩ := (h.coherent u).known r' hr'
    have hcost := (h.cost u _ c).mp hc
    have hc15 := (h.bounded u _ c hcost).2
    simp only [rank, hlookup, hlookup', hm, hcost, Option.getD_some]
    by_cases hsame : r'.prefixLen = r.prefixLen
    · rw [htidy'.key_of_matches htidy hr' hr hsame hmatch' hmatch, hm'] at hcost
      obtain rfl := Option.some.inj hcost
      omega
    · omega

theorem Refines.arrives (h : topo.Refines net s) {ip : Ipv4Address} {r : RouteEntry}
    (hr : (net.engine v).routes.lookup ip = some r) :
    ∃ w r', Relation.ReflTransGen (topo.Forwards net ip) v w ∧
      (net.engine w).routes.lookup ip = some r' ∧ r'.gateway = none ∧ topo.Home w r'.key := by
  induction hn : rank net s ip v using Nat.strong_induction_on generalizing v r with
  | _ n ih =>
    obtain ⟨hmem, -⟩ := lookup_mem hr
    cases hgateway : r.gateway with
    | none =>
      obtain ⟨m, hm⟩ := (h.coherent v).known r hmem
      have hvia : s.via v r.key = none := by
        simpa [hgateway] using (h.via v r hmem).symm
      exact ⟨v, r, .refl, hr, hgateway, h.sound.atHome v _ m ((h.cost v _ m).mp hm) hvia⟩
    | some g =>
      have hvia := h.via v r hmem
      rw [hgateway, eq_comm, Option.map_eq_some_iff] at hvia
      obtain ⟨u, hu, rfl⟩ := hvia
      have hforwards : topo.Forwards net ip v u :=
        ⟨(h.sound.parent v _ u hu).1, r, hr, hgateway⟩
      obtain ⟨⟨r₁, hr₁⟩, hlt⟩ := h.forwards hforwards
      obtain ⟨w, r', hpath, hw⟩ := ih _ (hn ▸ hlt) hr₁ rfl
      exact ⟨w, r', hpath.head hforwards, hw⟩

theorem Refines.hopDistance_le (h : topo.Refines net s) {m : ℕ}
    (hm : (p, m) ∈ (net.engine v).routeMetrics) : topo.hopDistance v p + 1 ≤ m ∧ m ≤ 15 := by
  have hcost := (h.cost v p m).mp hm
  obtain ⟨w, hw, hdist⟩ := h.sound.far v p m hcost
  refine ⟨le_trans ?_ hdist, (h.bounded v p m hcost).2⟩
  gcongr
  exact iInf₂_le w hw

/-- In every order of advertisements, with any of them lost, late or repeated: no metric is below
the distance, gateways are nearer, and following them, or the lookups, leads to the network. -/
theorem gateways_lead_home [DecidableEq N] (exchanges : List (Exchange N))
    (h : Machine.Along topo.step topo.Possible topo.start exchanges) :
    let net := Machine.run topo.step topo.start exchanges
    (∀ v p m, (p, m) ∈ (net.engine v).routeMetrics → topo.hopDistance v p + 1 ≤ m ∧ m ≤ 15) ∧
      (∀ v, ∀ r ∈ (net.engine v).routes.routes, ∀ g, r.gateway = some g →
        ∃ u, topo.graph.Adj u v ∧ topo.address u v = g ∧ ∃ m m',
          (r.key, m) ∈ (net.engine v).routeMetrics ∧
          (r.key, m') ∈ (net.engine u).routeMetrics ∧ m' < m) ∧
      (∀ v p, ¬ Relation.TransGen (topo.GatewayFor net p) v v) ∧
      (∀ v p m, (p, m) ∈ (net.engine v).routeMetrics →
        ∃ w, Relation.ReflTransGen (topo.GatewayFor net p) v w ∧ topo.Home w p) ∧
      (∀ v ip, ¬ Relation.TransGen (topo.Forwards net ip) v v) ∧
      (∀ v ip r, (net.engine v).routes.lookup ip = some r →
        ∃ w r', Relation.ReflTransGen (topo.Forwards net ip) v w ∧
          (net.engine w).routes.lookup ip = some r' ∧ r'.gateway = none ∧ topo.Home w r'.key) := by
  obtain ⟨s, hs⟩ := h.keeps (I := fun net => ∃ s, topo.Refines net s)
    (fun _ _ => refines_step) refines_start
  have hhop : ∀ p, topo.GatewayFor (Machine.run topo.step topo.start exchanges) p = s.Hop p := by
    intro p
    funext v u
    exact propext hs.gatewayFor_iff
  refine ⟨fun v p m => hs.hopDistance_le, ?_, ?_, ?_, ?_, fun v ip r => hs.arrives⟩
  · intro v r hr g hg
    have hvia := hs.via v r hr
    rw [hg, eq_comm, Option.map_eq_some_iff] at hvia
    obtain ⟨u, hu, haddress⟩ := hvia
    obtain ⟨hadj, m, m', hm, hm', hlt⟩ := hs.sound.parent v _ u hu
    exact ⟨u, hadj, haddress, m, m', (hs.cost v _ m).mpr hm, (hs.cost u _ m').mpr hm', hlt⟩
  · intro v p
    rw [hhop]
    exact hs.sound.no_loop v p
  · intro v p m hm
    rw [hhop]
    exact hs.sound.reaches ((hs.cost v p m).mp hm)
  · intro v ip
    exact no_cycle (fun v u hvu => (hs.forwards hvu).2)

/-- Two routers on one link, each with a network of its own. -/
def pair : Topology Bool where
  graph := ⊤
  networks v := if v then [((⟨10, 0, 0, 0⟩, 8), "eth1")] else [((⟨192, 168, 1, 0⟩, 24), "eth0")]
  address u _ := if u then ⟨192, 168, 1, 2⟩ else ⟨192, 168, 1, 1⟩
  interface _ _ := "eth0"
  canonical v := by cases v <;> decide +kernel
  address_injective _ u u' _ _ h := by
    cases u <;> cases u' <;> simp_all

theorem gateways_lead_home_pair :
    pair.hopDistance true (⟨192, 168, 1, 0⟩, 24) + 1 ≤ (2 : ℕ) := by
  have hrun : Machine.Along pair.step pair.Possible pair.start
      [.advertise false, .deliver false (pair.start.engine false).buildAdvertisement true] :=
    ⟨trivial, ⟨List.mem_cons_self, by simp [pair]⟩, trivial⟩
  exact ((gateways_lead_home _ hrun).1 true (⟨192, 168, 1, 0⟩, 24) 2 (by decide +kernel)).1

end Topology

end ToyTcpip.Rip
