import ToyTcpip.Routing.Lookup

/-! The RIPv2 engine of `rip.rs`. -/
namespace ToyTcpip.Rip

open Routing Reconcile

def ripVersion2 : ℕ := 2

def ripCmdResponse : ℕ := 2

def ripInfinityMetric : ℕ := 16

def ripAfiIpv4 : ℕ := 2

structure RipEntry where
  addressFamily : ℕ
  routeTag : ℕ
  ip : Ipv4Address
  subnetMask : Ipv4Address
  nextHop : Ipv4Address
  metric : ℕ
  deriving DecidableEq, Repr

structure RipPacket where
  command : ℕ
  version : ℕ
  routingDomain : ℕ
  entries : List RipEntry
  deriving DecidableEq, Repr

/-- A destination and a prefix length. -/
abbrev Net := Ipv4Address × ℕ

def Canonical (p : Net) : Prop := p.2 ≤ 32 ∧ p.1.mask p.2 = p.1

instance (p : Net) : Decidable (Canonical p) := inferInstanceAs (Decidable (_ ∧ _))

structure RipEngine where
  routes : RoutingTable
  routeMetrics : List (Net × ℕ)

namespace RipEngine

def new : RipEngine := ⟨.new, []⟩

/-- `add_route`, which installs a static route. -/
def addRoute (t : RoutingTable) (p : Net) (gateway : Option Ipv4Address) (interface : String) :
    RoutingTable :=
  t.addRouteFrom p.1 p.2 gateway interface .static

def addLocalNetwork (e : RipEngine) (p : Net) (interface : String) : RipEngine :=
  ⟨addRoute e.routes p none interface, e.routeMetrics ++ [(p, 1)]⟩

def subnetMask (len : ℕ) : Ipv4Address :=
  .fromU32 (if len = 0 then 0 else if len ≥ 32 then BitVec.allOnes 32
    else BitVec.allOnes 32 <<< (32 - len))

def advertised (m : Net × ℕ) : RipEntry :=
  ⟨ripAfiIpv4, 0, m.1.1, subnetMask m.1.2, ⟨0, 0, 0, 0⟩, m.2⟩

def buildAdvertisement (e : RipEngine) : RipPacket :=
  ⟨ripCmdResponse, ripVersion2, 0, e.routeMetrics.map advertised⟩

/-- The prefix an entry names: the mask counts as its number of ones. -/
def netOf (entry : RipEntry) : Net := (entry.ip, entry.subnetMask.toU32.cpop.toNat)

/-- The first metric of the prefix is overwritten, or a new one pushed, and its route with it. -/
def install (e : RipEngine) (p : Net) (newMetric : ℕ) (neighborIp : Ipv4Address)
    (interface : String) : RipEngine :=
  ⟨addRoute e.routes p (some neighborIp) interface,
    replaceOrPush (fun m => m.1 = p) (p, newMetric) e.routeMetrics⟩

/-- A metric that is new, or better than the one known, is taken with its neighbour. -/
def learn (e : RipEngine) (p : Net) (newMetric : ℕ) (neighborIp : Ipv4Address)
    (interface : String) : Option RipEngine :=
  match e.routeMetrics.find? fun m => m.1 = p with
  | some m => if newMetric < m.2 then some (e.install p newMetric neighborIp interface) else none
  | none => some (e.install p newMetric neighborIp interface)

def processEntry (neighborIp : Ipv4Address) (interface : String) (e : RipEngine)
    (entry : RipEntry) : Option RipEngine :=
  let newMetric := min ((entry.metric + 1) % 2 ^ 32) ripInfinityMetric
  if entry.addressFamily ≠ ripAfiIpv4 then none
  else if ripInfinityMetric ≤ newMetric then none
  else e.learn (netOf entry) newMetric neighborIp interface

/-- The engine and the number of its routes that were updated. -/
def processAdvertisement (e : RipEngine) (neighborIp : Ipv4Address) (pkt : RipPacket)
    (interface : String) : RipEngine × ℕ :=
  pkt.entries.foldl
    (fun (e, updated) entry =>
      match processEntry neighborIp interface e entry with
      | some e' => (e', updated + 1)
      | none => (e, updated))
    (e, 0)

/-! ### Prefixes and their routes -/

variable {e : RipEngine} {p q : Net} {k j : ℕ} {gateway : Option Ipv4Address} {interface : String}
  {t : RoutingTable} {metrics : List (Net × ℕ)} {r : RouteEntry}

theorem cpop_subnetMask {len : ℕ} (h : len ≤ 32) : (subnetMask len).toU32.cpop.toNat = len := by
  interval_cases len <;> decide +kernel

theorem netOf_advertised (h : Canonical p) : netOf (advertised (p, k)) = p := by
  rw [netOf, advertised, cpop_subnetMask h.1]

def isStatic (r : RouteEntry) : Bool := r.source = .static

/-- Every entry is static, canonical and the only one of its prefix. -/
structure Tidy (t : RoutingTable) : Prop extends Ordered t where
  static : ∀ r ∈ t.routes, isStatic r = true
  masked : ∀ r ∈ t.routes, r.destination.mask r.prefixLen = r.destination
  unique : Unique isStatic RouteEntry.key t.routes

def routeOf (p : Net) (gateway : Option Ipv4Address) (interface : String) : RouteEntry :=
  .withSource p.1 p.2 gateway interface .static

theorem key_routeOf (h : Canonical p) : (routeOf p gateway interface).key = p := by
  simp [routeOf, RouteEntry.withSource, RouteEntry.key, min_eq_left h.1, h.2]

theorem Tidy.key_eq (h : Tidy t) (hr : r ∈ t.routes) : r.key = (r.destination, r.prefixLen) := by
  rw [RouteEntry.key, h.masked r hr]

/-- Routes of one length that match one address are for one prefix. -/
theorem Tidy.key_of_matches (h : Tidy t) {t' : RoutingTable} (h' : Tidy t') {r' : RouteEntry}
    (hr : r ∈ t.routes) (hr' : r' ∈ t'.routes) (hlen : r.prefixLen = r'.prefixLen)
    {ip : Ipv4Address} (hip : r.matchesAddr ip = true) (hip' : r'.matchesAddr ip = true) :
    r.key = r'.key := by
  obtain ⟨hle, hmask⟩ := h.built r hr
  obtain ⟨-, hmask'⟩ := h'.built r' hr'
  simp only [RouteEntry.matchesAddr, decide_eq_true_eq, hmask, hmask', ← hlen] at hip hip'
  rw [RouteEntry.key, RouteEntry.key, ← hlen, (Ipv4Address.mask_eq_mask_iff hle).mpr
    (hip.symm.trans hip')]

/-- A route matches what another of its prefix matches. -/
theorem Tidy.matches_of_key (h : Tidy t) {t' : RoutingTable} (h' : Tidy t') {r' : RouteEntry}
    (hr : r ∈ t.routes) (hr' : r' ∈ t'.routes) (hkey : r.key = r'.key) {ip : Ipv4Address}
    (hip : r.matchesAddr ip = true) : r'.matchesAddr ip = true := by
  obtain ⟨hdest, hlen⟩ : r.destination = r'.destination ∧ r.prefixLen = r'.prefixLen := by
    simpa [h.key_eq hr, h'.key_eq hr'] using hkey
  rw [RouteEntry.matchesAddr, (h'.built r' hr').2, ← hlen, ← hdest, ← (h.built r hr).2]
  exact hip

theorem put_addRoute (h : Tidy t) (gateway : Option Ipv4Address) (interface : String) :
    Put isStatic RouteEntry.key t.routes (routeOf p gateway interface)
      (addRoute t p gateway interface).routes := by
  refine put_arrange (put_replaceOrPush (fun r => ?_) h.unique rfl) h.sorted
  rw [decide_eq_true_iff, isStatic, decide_eq_true_iff]
  exact Iff.rfl

theorem static_addRoute (h : Tidy t) (hr : r ∈ (addRoute t p gateway interface).routes) :
    isStatic r = true := by
  rcases mem_replaceOrPush (Ranked.mem_arrange.mp hr) with hr | rfl
  · exact h.static r hr
  · rfl

theorem mem_addRoute (h : Tidy t) (hp : Canonical p) :
    r ∈ (addRoute t p gateway interface).routes ↔
      r = routeOf p gateway interface ∨ r ∈ t.routes ∧ r.key ≠ p := by
  have hput := put_addRoute (p := p) h gateway interface
  have hkey : (routeOf p gateway interface).key = p := key_routeOf hp
  constructor
  · intro hr
    have := (hput.mem r (static_addRoute h hr)).mp hr
    rwa [hkey] at this
  · rintro (rfl | ⟨hr, hne⟩)
    · exact (hput.mem _ rfl).mpr (.inl rfl)
    · exact (hput.mem r (h.static r hr)).mpr (.inr ⟨hr, by rwa [hkey]⟩)

theorem Tidy.addRoute (h : Tidy t) (hp : Canonical p) : Tidy (addRoute t p gateway interface) where
  toOrdered := h.toOrdered.step (.addRouteFrom p.1 p.2 gateway interface .static)
  static _ hr := static_addRoute h hr
  masked r hr := by
    rcases (mem_addRoute h hp).mp hr with rfl | ⟨hr, -⟩
    · simp [routeOf, RouteEntry.withSource, min_eq_left hp.1, hp.2]
    · exact h.masked r hr
  unique := (put_addRoute h gateway interface).unique

theorem tidy_new : Tidy .new := by
  refine ⟨⟨?_, ?_⟩, ?_, ?_, ?_⟩ <;> simp [RoutingTable.new, unique_nil]

/-! ### Metrics and their routes -/

/-- A prefix is repeated only as a local network. -/
def Once (metrics : List (Net × ℕ)) : Prop :=
  metrics.Pairwise fun a b => a.1 = b.1 → a.2 = 1 ∧ b.2 = 1

theorem Once.functional (h : Once metrics) (hj : (p, j) ∈ metrics) (hk : (p, k) ∈ metrics) :
    j = k := by
  have hall : metrics.Pairwise fun a b => a.1 = b.1 → a.2 = b.2 := by
    refine h.imp ?_
    intro a b hab heq
    obtain ⟨ha, hb⟩ := hab heq
    rw [ha, hb]
  have : Std.Symm fun a b : Net × ℕ => a.1 = b.1 → a.2 = b.2 :=
    ⟨fun a b hab heq => (hab heq.symm).symm⟩
  exact hall.forall_of_forall (fun _ _ _ => rfl) hj hk rfl

/-- A better metric than all of its prefix takes their place. -/
theorem improve (h : Once metrics) (hk : 1 ≤ k) (hbetter : ∀ m, (p, m) ∈ metrics → k < m) :
    Once (replaceOrPush (fun m => m.1 = p) (p, k) metrics) ∧
      ∀ q j, (q, j) ∈ replaceOrPush (fun m => m.1 = p) (p, k) metrics ↔
        if q = p then j = k else (q, j) ∈ metrics := by
  induction metrics with
  | nil =>
    refine ⟨List.pairwise_singleton _ _, fun q j => ?_⟩
    simp only [replaceOrPush, List.findIdx?_nil, List.nil_append, List.mem_singleton, Prod.mk.injEq,
      List.not_mem_nil]
    split_ifs with hq <;> simp [hq]
  | cons a rest ih =>
    obtain ⟨ha, hrest⟩ := List.pairwise_cons.mp h
    rw [replaceOrPush_cons]
    by_cases hap : a.1 = p
    · have hmetric : k < a.2 := hbetter a.2 (by simp [← hap])
      -- the metric is above one, so its prefix occurs nowhere else
      have hfresh : ∀ b ∈ rest, b.1 ≠ p := by
        intro b hb hbp
        have := (ha b hb (hap.trans hbp.symm)).1
        omega
      rw [if_pos (by simpa using hap)]
      refine ⟨List.pairwise_cons.mpr ⟨fun b hb heq => absurd heq.symm (hfresh b hb), hrest⟩, ?_⟩
      intro q j
      simp only [List.mem_cons, Prod.mk.injEq]
      split_ifs with hq
      · subst hq
        constructor
        · rintro (⟨-, hj⟩ | hmem)
          · exact hj
          · exact absurd rfl (hfresh _ hmem)
        · intro hj
          exact .inl ⟨rfl, hj⟩
      · constructor
        · rintro (⟨hqp, -⟩ | hmem)
          · exact absurd hqp hq
          · exact .inr hmem
        · rintro (rfl | hmem)
          · exact absurd hap hq
          · exact .inr hmem
    · obtain ⟨honce, hmem⟩ := ih hrest (fun m hm => hbetter m (List.mem_cons_of_mem a hm))
      rw [if_neg (by simpa using hap)]
      refine ⟨List.pairwise_cons.mpr ⟨?_, honce⟩, ?_⟩
      · rintro ⟨q, j⟩ hq heq
        have hqmem := (hmem q j).mp hq
        rw [if_neg (fun hqp => hap (heq.trans hqp))] at hqmem
        exact ha _ hqmem heq
      · intro q j
        rw [List.mem_cons, List.mem_cons, hmem]
        split_ifs with hq
        · subst hq
          constructor
          · rintro (rfl | hj)
            · exact absurd rfl hap
            · exact hj
          · exact .inr
        · exact Iff.rfl

/-- Metrics and routes are for the same prefixes. -/
structure Coherent (e : RipEngine) : Prop where
  tidy : Tidy e.routes
  once : Once e.routeMetrics
  canonical : ∀ p m, (p, m) ∈ e.routeMetrics → Canonical p
  covered : ∀ p m, (p, m) ∈ e.routeMetrics → ∃ r ∈ e.routes.routes, r.key = p
  known : ∀ r ∈ e.routes.routes, ∃ m, (r.key, m) ∈ e.routeMetrics

variable {neighborIp : Ipv4Address} {e' : RipEngine}

/-- What is learnt is better than what was known, and changes one prefix. -/
theorem learn_cases (h : Once e.routeMetrics) (he : e.learn p k neighborIp interface = some e') :
    e' = e.install p k neighborIp interface ∧ ∀ m, (p, m) ∈ e.routeMetrics → k < m := by
  rw [learn] at he
  split at he
  · next m hm =>
    have hmem := List.mem_of_find?_eq_some hm
    have hp : m.1 = p := by simpa using List.find?_some hm
    split_ifs at he with hlt
    refine ⟨(Option.some.inj he).symm, fun j hj => ?_⟩
    have hmj : (p, m.2) ∈ e.routeMetrics := by rwa [← hp]
    rw [h.functional hj hmj]
    exact hlt
  · next hnone =>
    refine ⟨(Option.some.inj he).symm, fun j hj => ?_⟩
    have := List.find?_eq_none.mp hnone _ hj
    simp at this

theorem Coherent.install (h : e.Coherent) (hp : Canonical p) (hk : 1 ≤ k)
    (hbetter : ∀ m, (p, m) ∈ e.routeMetrics → k < m) :
    (e.install p k neighborIp interface).Coherent := by
  obtain ⟨honce, hmem⟩ := improve h.once hk hbetter
  refine ⟨h.tidy.addRoute hp, honce, ?_, ?_, ?_⟩
  · intro q j hq
    have hq := (hmem q j).mp hq
    split_ifs at hq with hqp
    · rwa [hqp]
    · exact h.canonical q j hq
  · intro q j hq
    have hq := (hmem q j).mp hq
    split_ifs at hq with hqp
    · exact ⟨routeOf p (some neighborIp) interface, (mem_addRoute h.tidy hp).mpr (.inl rfl),
        (key_routeOf hp).trans hqp.symm⟩
    · obtain ⟨r, hr, hkey⟩ := h.covered q j hq
      exact ⟨r, (mem_addRoute h.tidy hp).mpr (.inr ⟨hr, hkey ▸ hqp⟩), hkey⟩
  · intro r hr
    rcases (mem_addRoute h.tidy hp).mp hr with rfl | ⟨hr, hne⟩
    · exact ⟨k, (hmem _ k).mpr (by rw [key_routeOf hp, if_pos rfl])⟩
    · obtain ⟨j, hj⟩ := h.known r hr
      exact ⟨j, (hmem _ j).mpr (by rwa [if_neg hne])⟩

/-! ### The engine before it has heard anything -/

/-- All that is known are local networks. -/
structure Fresh (networks : List (Net × String)) (e : RipEngine) : Prop extends Coherent e where
  local_iff : ∀ p m, (p, m) ∈ e.routeMetrics ↔ m = 1 ∧ p ∈ networks.map Prod.fst
  onLink : ∀ r ∈ e.routes.routes, r.gateway = none

theorem Fresh.addLocalNetwork {networks : List (Net × String)} (h : Fresh networks e)
    (hp : Canonical p) (interface : String) :
    Fresh (networks ++ [(p, interface)]) (e.addLocalNetwork p interface) where
  tidy := h.tidy.addRoute hp
  once := by
    refine List.pairwise_append.mpr ⟨h.once, List.pairwise_singleton _ _, ?_⟩
    rintro ⟨q, m⟩ hq b hb -
    obtain rfl := List.mem_singleton.mp hb
    exact ⟨((h.local_iff q m).mp hq).1, rfl⟩
  canonical q m hq := by
    rcases List.mem_append.mp hq with hq | hq
    · exact h.canonical q m hq
    · obtain ⟨rfl, -⟩ : q = p ∧ m = 1 := by simpa using hq
      exact hp
  covered q m hq := by
    by_cases hqp : q = p
    · exact ⟨_, (mem_addRoute h.tidy hp).mpr (.inl rfl), (key_routeOf hp).trans hqp.symm⟩
    · have hq : (q, m) ∈ e.routeMetrics := by simpa [RipEngine.addLocalNetwork, hqp] using hq
      obtain ⟨r, hr, hkey⟩ := h.covered q m hq
      exact ⟨r, (mem_addRoute h.tidy hp).mpr (.inr ⟨hr, hkey ▸ hqp⟩), hkey⟩
  known r hr := by
    rcases (mem_addRoute h.tidy hp).mp hr with rfl | ⟨hr, -⟩
    · exact ⟨1, by simp [RipEngine.addLocalNetwork, key_routeOf hp]⟩
    · obtain ⟨m, hm⟩ := h.known r hr
      exact ⟨m, List.mem_append_left _ hm⟩
  local_iff q m := by
    simp only [RipEngine.addLocalNetwork, List.mem_append, h.local_iff, List.map_append]
    simp
    tauto
  onLink r hr := by
    rcases (mem_addRoute h.tidy hp).mp hr with rfl | ⟨hr, -⟩
    · rfl
    · exact h.onLink r hr

theorem fresh_new : Fresh [] .new := by
  refine ⟨⟨tidy_new, .nil, ?_, ?_, ?_⟩, ?_, ?_⟩ <;> simp [new, RoutingTable.new]

end RipEngine

end ToyTcpip.Rip
