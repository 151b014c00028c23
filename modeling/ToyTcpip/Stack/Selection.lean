import ToyTcpip.Stack.NetStack

/-! Selection of default routers and of the routes learned from Router Advertisements. -/
namespace ToyTcpip.NetStack

open Hashed (HashMap HashOrder)

variable {τ : Type}

def setIpv6DefaultGateway (s : NetStack τ) (gateway : Option Ipv6Address) : NetStack τ :=
  let s := if s.ipv6Gateway ≠ gateway then { s with ipv6RedirectCache := ∅ } else s
  addGateway { s.dropGateway with ipv6Gateway := gateway } gateway

/-- A candidate of the default route: the router, its deadline and its preference. -/
abbrev Candidate := Ipv6Address × Option ℕ × RouterPreference

/-- A `::/0` route overrides what the advertisement's header said of its router. -/
def addRioCandidate (candidates : List Candidate)
    (e : Sigma fun _ : RaRouteKey => Option ℕ × RouterPreference) : List Candidate :=
  if e.1.2.1 ≠ 0 ∨ e.1.1 ≠ .unspecified then candidates
  else Routing.replaceOrPush (fun c => c.1 = e.1.2.2) (e.1.2.2, e.2) candidates

section ordered

variable [HashOrder]

def ipv6DefaultRouteCandidates (s : NetStack τ) : List Candidate :=
  (HashOrder.iter s.ipv6RaRoutes.entries).foldl addRioCandidate s.ipv6DefaultRouters

def defaultRouterDeadline (s : NetStack τ) (router : Ipv6Address) : Option (Option ℕ) :=
  (s.ipv6DefaultRouteCandidates.find? fun c => c.1 = router).map fun c => c.2.1

def defaultRouterReachabilityRank (s : NetStack τ) (router : Ipv6Address) : ℕ :=
  match s.ndpTable.state router with
  | some .reachable => 2
  | some _ => 1
  | none => 0

/-- Reachability comes before preference. -/
def score (s : NetStack τ) (router : Ipv6Address) (preference : RouterPreference) : ℕ ×ₗ ℕ :=
  toLex (s.defaultRouterReachabilityRank router, preference.rank)

/-- The router of the best valid candidate; the active one keeps its place when nothing is
better. -/
def bestDefaultRouter (s : NetStack τ) : Option Ipv6Address :=
  let valid := s.ipv6DefaultRouteCandidates.filter fun c => stillValid s.currentTimeMs c.2.1
  let scoreOf := fun c : Candidate => s.score c.1 c.2.2
  match (valid.map scoreOf).max? with
  | none => none
  | some best =>
    let activeIsBest := s.ipv6Gateway.any fun router =>
      (valid.find? fun c => c.1 = router).any fun c => scoreOf c = best
    if activeIsBest then s.ipv6Gateway
    else (valid.find? fun c => scoreOf c = best).map Prod.fst

def selectIpv6DefaultRouter (s : NetStack τ) : NetStack τ :=
  let selected := s.bestDefaultRouter
  let selectedDeadline := selected.bind fun router => (s.defaultRouterDeadline router).join
  let s := if s.ipv6Gateway ≠ selected then s.setIpv6DefaultGateway selected else s
  { s with
    ipv6SlaacLifetimes := s.ipv6SlaacLifetimes.map fun lifetimes =>
      { lifetimes with router := selected, routerUntilMs := selectedDeadline }
    ipv6Dad := s.ipv6Dad.map fun dad =>
      { dad with gateway := selected, routerUntilMs := selectedDeadline } }

def refreshSlaacDefaultRouter (s : NetStack τ) (router : Ipv6Address) (lifetimeSecs : ℕ)
    (preference : RouterPreference) : NetStack τ :=
  let routers :=
    if lifetimeSecs = 0 then s.ipv6DefaultRouters.filter fun c => c.1 ≠ router
    else
      Routing.replaceOrPush (fun c => c.1 = router)
        (router, some (satAddMs s.currentTimeMs (lifetimeSecs * 1000)),
          preference) s.ipv6DefaultRouters
  selectIpv6DefaultRouter { s with ipv6DefaultRouters := routers }

def expireIpv6DefaultRouters (s : NetStack τ) (now : ℕ) : NetStack τ × Bool :=
  let routers := s.ipv6DefaultRouters.filter fun c => stillValid now c.2.1
  let s' := selectIpv6DefaultRouter { s with ipv6DefaultRouters := routers }
  (s', s.ipv6Gateway.isSome && s'.ipv6Gateway.isNone)

def refreshIpv6RaOnLinkPrefix (s : NetStack τ) (address : Ipv6Address) (len validLifetime : ℕ) :
    NetStack τ :=
  let len := min len 128
  let pfx := address.mask len
  if validLifetime = 0 then
    { s with
      ipv6RaOnLinkPrefixes := s.ipv6RaOnLinkPrefixes.erase (pfx, len)
      ipv6RoutingTable := s.ipv6RoutingTable.removeRoute pfx len .ra }
  else
    { s with
      ipv6RaOnLinkPrefixes :=
        s.ipv6RaOnLinkPrefixes.insert (pfx, len)
          (ipv6LifetimeDeadline s.currentTimeMs validLifetime)
      ipv6RoutingTable := s.ipv6RoutingTable.addRouteFrom pfx len none "eth0" .ra }

/-- `min_by_key` on the bytes of the addresses. -/
def leastAddress (routers : List Ipv6Address) : Option Ipv6Address :=
  routers.foldl (fun least router =>
    match least with
    | none => some router
    | some r => if router.octets < r.octets then some router else some r) none

/-- The valid candidates of a prefix; those that failed only count when there is no other. -/
def raRouteCandidates (s : NetStack τ) (pfx : Ipv6Address) (len : ℕ) :
    List (Ipv6Address × RouterPreference) :=
  let valid := ((HashOrder.iter s.ipv6RaRoutes.entries).filter fun e =>
    e.1.1 = pfx ∧ e.1.2.1 = len ∧ stillValid s.currentTimeMs e.2.1).map fun e => (e.1.2.2, e.2.2)
  let unquarantined := valid.filter fun c => c.1 ∉ s.ipv6FailedRioRouters
  if unquarantined.isEmpty then valid else unquarantined

/-- The router through which a prefix is reached best; the current one wins a tie. -/
def bestRaRouter (s : NetStack τ) (pfx : Ipv6Address) (len : ℕ) (current : Option Ipv6Address) :
    Option Ipv6Address :=
  let candidates := s.raRouteCandidates pfx len
  let scoreOf := fun c : Ipv6Address × RouterPreference => s.score c.1 c.2
  match (candidates.map scoreOf).max? with
  | none => none
  | some best =>
    let currentIsBest := current.any fun router => candidates.any fun c =>
      c.1 = router ∧ scoreOf c = best
    if currentIsBest then current
    else leastAddress ((candidates.filter fun c => scoreOf c = best).map Prod.fst)

def selectIpv6RaRoute (s : NetStack τ) (address : Ipv6Address) (len : ℕ) : NetStack τ :=
  let len := min len 128
  let pfx := address.mask len
  let dropped : NetStack τ :=
    { s with ipv6RoutingTable := s.ipv6RoutingTable.removeRoute pfx len .raRoute }
  if len = 0 then dropped.selectIpv6DefaultRouter
  else
    let currentGateway := ((s.ipv6RoutingTable.findExact pfx len).filter fun route =>
      route.source = .raRoute).bind fun route => route.gateway
    match dropped.bestRaRouter pfx len currentGateway with
    | none => dropped
    | some router =>
      { dropped with
        ipv6RoutingTable :=
          dropped.ipv6RoutingTable.addRouteFrom pfx len (some router) "eth0" .raRoute }

/-- The prefixes of some candidates, each once. -/
def prefixesOf (keys : List RaRouteKey) : List (Ipv6Address × ℕ) :=
  keys.foldl (fun prefixes k =>
    if (k.1, k.2.1) ∈ prefixes then prefixes else prefixes ++ [(k.1, k.2.1)]) []

def selectIpv6RaRoutes (s : NetStack τ) (prefixes : List (Ipv6Address × ℕ)) : NetStack τ :=
  prefixes.foldl (fun s p => s.selectIpv6RaRoute p.1 p.2) s

def reselectIpv6RaRoutes (s : NetStack τ) : NetStack τ :=
  s.selectIpv6RaRoutes
    (prefixesOf ((HashOrder.iter s.ipv6RaRoutes.keys).filter fun k => k.2.1 ≠ 0))

def raRouteKey (router address : Ipv6Address) (len : ℕ) : RaRouteKey :=
  (address.mask (min len 128), min len 128, router)

/-- Route Lifetime 0 withdraws the candidate. -/
def refreshedRaRoutes (routes : HashMap RaRouteKey (Option ℕ × RouterPreference)) (key : RaRouteKey)
    (now : ℕ) (preference : RouterPreference) (routeLifetime : ℕ) :
    HashMap RaRouteKey (Option ℕ × RouterPreference) :=
  if routeLifetime = 0 then routes.erase key
  else routes.insert key (ipv6LifetimeDeadline now routeLifetime, preference)

def refreshIpv6RaRoute (s : NetStack τ) (router address : Ipv6Address) (len : ℕ)
    (preference : RouterPreference) (routeLifetime : ℕ) : NetStack τ :=
  let key := raRouteKey router address len
  selectIpv6RaRoute
    { s with
      ipv6RaRoutes := refreshedRaRoutes s.ipv6RaRoutes key s.currentTimeMs preference
        routeLifetime }
    key.1 key.2.1

end ordered

/-! ### What selection leaves alone -/

/-- The state without the routing tables, the routers and what is remembered about them. -/
structure Core where
  config : NetStackConfig
  arpTable : ArpTable
  ndpTable : NdpTable
  slaac : Option (Ipv6Address × Option ℕ × Option ℕ)
  dad : Option ((Ipv6Address × Option ℕ × Option ℕ) × ℕ × ℕ)
  raRoutes : HashMap RaRouteKey (Option ℕ × RouterPreference)
  linkMtu : ℕ
  pathMtuCache : HashMap Ipv6Address ℕ
  firewall : Firewall
  time : ℕ
  pendingArp : HashMap Ipv4Address (List (List UInt8))
  pendingNdp : HashMap Ipv6Address (List (List UInt8))

def core (s : NetStack τ) : Core :=
  ⟨s.config, s.arpTable, s.ndpTable, s.ipv6SlaacLifetimes.map Ipv6SlaacLifetimes.terms,
    s.ipv6Dad.map PendingIpv6Dad.terms, s.ipv6RaRoutes, s.ipv6LinkMtu, s.ipv6PathMtuCache,
    s.firewall, s.currentTimeMs, s.pendingArpPackets, s.pendingNdpPackets⟩

section core

variable (s : NetStack τ)

@[simp] theorem core_dropConnected : s.dropConnected.core = s.core := by
  unfold dropConnected
  split <;> rfl

@[simp] theorem core_dropGateway : s.dropGateway.core = s.core := by
  unfold dropGateway
  split <;> rfl

@[simp] theorem core_addGateway (gateway : Option Ipv6Address) :
    (s.addGateway gateway).core = s.core := by
  cases gateway <;> rfl

@[simp] theorem core_setIpv6DefaultGateway (gateway : Option Ipv6Address) :
    (s.setIpv6DefaultGateway gateway).core = s.core := by
  rw [setIpv6DefaultGateway, core_addGateway]
  split
  · exact core_dropGateway { s with ipv6RedirectCache := ∅ }
  · exact core_dropGateway s

variable [HashOrder]

@[simp] theorem core_selectIpv6DefaultRouter : s.selectIpv6DefaultRouter.core = s.core := by
  have h : (if s.ipv6Gateway ≠ s.bestDefaultRouter then
      s.setIpv6DefaultGateway s.bestDefaultRouter else s).core = s.core := by
    split
    · exact core_setIpv6DefaultGateway s _
    · rfl
  rw [← h]
  simp only [selectIpv6DefaultRouter, core, Option.map_map]
  rfl

@[simp] theorem core_refreshSlaacDefaultRouter (router : Ipv6Address) (lifetimeSecs : ℕ)
    (preference : RouterPreference) :
    (s.refreshSlaacDefaultRouter router lifetimeSecs preference).core = s.core :=
  core_selectIpv6DefaultRouter _

@[simp] theorem core_expireIpv6DefaultRouters (now : ℕ) :
    (s.expireIpv6DefaultRouters now).1.core = s.core := core_selectIpv6DefaultRouter _

omit [HashOrder] in
@[simp] theorem core_refreshIpv6RaOnLinkPrefix (address : Ipv6Address) (len validLifetime : ℕ) :
    (s.refreshIpv6RaOnLinkPrefix address len validLifetime).core = s.core := by
  unfold refreshIpv6RaOnLinkPrefix
  dsimp only
  split <;> rfl

@[simp] theorem core_selectIpv6RaRoute (address : Ipv6Address) (len : ℕ) :
    (s.selectIpv6RaRoute address len).core = s.core := by
  unfold selectIpv6RaRoute
  dsimp only
  split
  · exact core_selectIpv6DefaultRouter _
  · split <;> rfl

@[simp] theorem core_selectIpv6RaRoutes (prefixes : List (Ipv6Address × ℕ)) :
    (s.selectIpv6RaRoutes prefixes).core = s.core := by
  unfold selectIpv6RaRoutes
  induction prefixes generalizing s with
  | nil => rfl
  | cons p rest ih => exact (ih _).trans (core_selectIpv6RaRoute s p.1 p.2)

@[simp] theorem core_reselectIpv6RaRoutes : s.reselectIpv6RaRoutes.core = s.core :=
  core_selectIpv6RaRoutes s _

/-- A route option changes the candidate of its router and nothing else here. -/
@[simp] theorem core_refreshIpv6RaRoute (router address : Ipv6Address) (len : ℕ)
    (preference : RouterPreference) (routeLifetime : ℕ) :
    (s.refreshIpv6RaRoute router address len preference routeLifetime).core =
      { s.core with
        raRoutes := refreshedRaRoutes s.core.raRoutes (raRouteKey router address len) s.core.time
          preference routeLifetime } := core_selectIpv6RaRoute _ _ _

end core

end ToyTcpip.NetStack
