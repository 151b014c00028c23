import ToyTcpip.Stack.Receive

/-! The timer pump of the host stack. -/
namespace ToyTcpip.NetStack

open Hashed (HashMap HashOrder)

variable {τ : Type}

/-- At most one solicitation a pump, three in all. -/
def stepRouterDiscovery (s : NetStack τ) (now : ℕ) : NetStack τ × List Frame :=
  match s.ipv6RouterDiscovery with
  | none => (s, [])
  | some discovery =>
    if now < discovery.nextSolicitationMs then (s, [])
    else
      let sent := discovery.solicitationsSent + 1
      if ipv6MaxRtrSolicitations ≤ sent then
        ({ s with ipv6RouterDiscovery := none, ipv6RouterDiscoveryExhausted := true },
          [s.routerSolicitation])
      else
        ({ s with
          ipv6RouterDiscovery := some ⟨sent, satAddMs now ipv6RtrSolicitationIntervalMs⟩ },
          [s.routerSolicitation])

/-- The probe of a neighbor that may have become unreachable. -/
def nudProbe (s : NetStack τ) (probe : Ipv6Address × MacAddress) : Option Frame :=
  s.config.ipv6.map fun myIp6 =>
    s.frameTo probe.2 ethertypeIpv6
      (icmpv6Packet myIp6 probe.1
        (Icmpv6Packet.buildNeighborSolicitation myIp6 probe.1 probe.1 s.config.mac))

section ordered

variable [HashOrder]

def stepNeighbors (s : NetStack τ) (now : ℕ) : NetStack τ × List Frame :=
  let (ndpTable, probes) := s.ndpTable.stepNud now
  ({ s with ndpTable }, probes.filterMap s.nudProbe)

/-- The routers of learned routes that the neighbor cache knows. -/
def cachedRioRouters (s : NetStack τ) : List Ipv6Address :=
  (((HashOrder.iter s.ipv6RaRoutes.keys).map fun k => k.2.2).filter fun router =>
    (s.ndpTable.lookup router).isSome).dedup

/-- The routes through routers that were just found unreachable are withdrawn. -/
def dropFailedRioRouters (s : NetStack τ) (failed : List Ipv6Address) : NetStack τ :=
  if failed = [] then s
  else
    let affected := prefixesOf ((HashOrder.iter s.ipv6RaRoutes.keys).filter fun k =>
      k.2.1 ≠ 0 ∧ k.2.2 ∈ failed)
    selectIpv6RaRoutes
      { s with
        ipv6FailedRioRouters := s.ipv6FailedRioRouters ∪ failed.toFinset
        ipv6RaRoutes :=
          Hashed.retain (fun k _ => k.2.1 = 0 ∨ k.2.2 ∉ failed) s.ipv6RaRoutes } affected

/-- The active router, when the neighbor cache knew it and has just lost it. -/
def dropLostDefaultRouter (s : NetStack τ) (active : Option Ipv6Address) : NetStack τ × Bool :=
  match active.filter fun router => (s.ndpTable.lookup router).isNone with
  | none => (s, false)
  | some router =>
    let s' := selectIpv6DefaultRouter
      { s with
        ipv6DefaultRouters := s.ipv6DefaultRouters.filter fun c => c.1 ≠ router
        ipv6RaRoutes :=
          Hashed.retain (fun k _ => ¬(k.2.1 = 0 ∧ k.1 = .unspecified ∧ k.2.2 = router))
            s.ipv6RaRoutes }
    (s', s.ipv6Gateway.isSome && s'.ipv6Gateway.isNone)

def expireRaOnLinkPrefixes (s : NetStack τ) (now : ℕ) : NetStack τ :=
  let expired := ((HashOrder.iter s.ipv6RaOnLinkPrefixes.entries).filter fun e =>
    !stillValid now e.2).map Sigma.fst
  { s with
    ipv6RaOnLinkPrefixes := Hashed.retain (fun _ d => stillValid now d) s.ipv6RaOnLinkPrefixes
    ipv6RoutingTable := expired.foldl (fun t k => t.removeRoute k.1 k.2 .ra) s.ipv6RoutingTable }

def expireRaRoutes (s : NetStack τ) (now : ℕ) : NetStack τ × Bool :=
  let expired := ((HashOrder.iter s.ipv6RaRoutes.entries).filter fun e =>
    !stillValid now e.2.1).map Sigma.fst
  let s' := selectIpv6RaRoutes
    { s with ipv6RaRoutes := Hashed.retain (fun _ v => stillValid now v.1) s.ipv6RaRoutes }
    (prefixesOf expired)
  (s', s.ipv6Gateway.isSome && s'.ipv6Gateway.isNone)

omit [HashOrder] in
/-- A tentative address whose interval ended without a conflict configures the interface. -/
def completeDad (s : NetStack τ) (now : ℕ) : NetStack τ :=
  match s.ipv6Dad.filter fun dad => dad.deadlineMs ≤ now with
  | none => s
  | some dad =>
    if stillValid now dad.validUntilMs then
      let gateway := if dad.routerUntilMs.any fun d => now < d then dad.gateway else none
      let s := s.configureIpv6Interface dad.address dad.prefixLen gateway
      { s with
        ipv6RoutingTable := s.ipv6RoutingTable.removeRoute dad.address dad.prefixLen .connected
        ipv6SlaacLifetimes := some
          { address := dad.address
            preferredUntilMs := dad.preferredUntilMs
            validUntilMs := dad.validUntilMs
            router := gateway
            routerUntilMs := gateway.bind fun _ => dad.routerUntilMs } }
    else { s with ipv6Dad := none }

/-- The end of the configured address, or of default routers; a host left without one asks again. -/
def expireLifetimes (s : NetStack τ) (now : ℕ) (discovering lostRouter : Bool) :
    NetStack τ × List Frame :=
  if s.ipv6SlaacLifetimes.any fun l => !stillValid now l.validUntilMs then
    (s.clearIpv6Interface, [])
  else
    let (s, lostLast) := s.expireIpv6DefaultRouters now
    if (lostLast || lostRouter) && !discovering then
      let (s, solicitation) := s.startRouterDiscovery
      (s, [solicitation])
    else (s, [])

omit [HashOrder] in
/-- The datagrams of the transports. -/
def transmit (s : NetStack τ) : List Outgoing → NetStack τ × List Frame
  | [] => (s, [])
  | tx :: rest =>
    let (s, ipId) := s.nextIpId
    let first := s.sendIpPacket tx.dstIp
      (Ipv4Packet.serialize tx.srcIp tx.dstIp tx.protocol ipId 64 tx.payload)
    let others := first.1.transmit rest
    (others.1, first.2.toList ++ others.2)

/-- Discovery and unreachability detection, with what the latter means for routes and routers. -/
def stepReachability (s : NetStack τ) (now : ℕ) : (NetStack τ × Bool) × List Frame :=
  let discovered := s.stepRouterDiscovery now
  let s := discovered.1
  let active := s.ipv6Gateway.filter fun router =>
    (s.defaultRouterDeadline router).isSome ∧ (s.ndpTable.lookup router).isSome
  let cached := s.cachedRioRouters
  let probed := s.stepNeighbors now
  let s := probed.1
  let failed := cached.filter fun router => (s.ndpTable.lookup router).isNone
  let s := (s.dropFailedRioRouters failed).reselectIpv6RaRoutes
  (s.dropLostDefaultRouter active, discovered.2 ++ probed.2)

def stepTimers [Transports τ] (s : NetStack τ) (now : ℕ) : NetStack τ × List Frame :=
  let discovering := s.ipv6RouterDiscovery.isSome
  let reached := stepReachability { s with currentTimeMs := now } now
  let expired := (reached.1.1.expireRaOnLinkPrefixes now).expireRaRoutes now
  let lived := (expired.1.completeDad now).expireLifetimes now discovering
    (reached.1.2 || expired.2)
  let (transports, txs) := Transports.stepTimers lived.1.transports now
  let sent := transmit { lived.1 with transports } txs
  (sent.1, reached.2 ++ lived.2 ++ sent.2)

end ordered

/-! ### What the pump does apart from selection -/

namespace Core

def configure (c : Core) (address : Ipv6Address) : Core :=
  { c with
    config := { c.config with ipv6 := some address }
    slaac := none, dad := none, raRoutes := ∅, pathMtuCache := ∅ }

def clear (c : Core) : Core :=
  { c with
    config := { c.config with ipv6 := none }
    slaac := none, dad := none, raRoutes := ∅, pathMtuCache := ∅
    linkMtu := ipv6EthernetLinkMtu, pendingNdp := ∅ }

/-- The tentative address whose interval is over. -/
def dueDad (c : Core) (now : ℕ) : Option ((Ipv6Address × Option ℕ × Option ℕ) × ℕ × ℕ) :=
  c.dad.filter fun d => d.2.2 ≤ now

/-- A due address that is still valid configures the interface. -/
def CompletesDad (c : Core) (now : ℕ) : Prop := ∃ d ∈ c.dueDad now, stillValid now d.1.2.2 = true

def completeDad (c : Core) (now : ℕ) : Core :=
  match c.dueDad now with
  | none => c
  | some (terms, _) =>
    if stillValid now terms.2.2 then { c.configure terms.1 with slaac := some terms }
    else { c with dad := none }

def ExpiresAddress (c : Core) (now : ℕ) : Prop := ∃ l ∈ c.slaac, stillValid now l.2.2 = false

instance (c : Core) (now : ℕ) : Decidable (c.CompletesDad now) :=
  inferInstanceAs (Decidable (∃ d ∈ c.dueDad now, _))

instance (c : Core) (now : ℕ) : Decidable (c.ExpiresAddress now) :=
  inferInstanceAs (Decidable (∃ l ∈ c.slaac, _))

def expireAddress (c : Core) (now : ℕ) : Core := if c.ExpiresAddress now then c.clear else c

end Core

section core

variable (s : NetStack τ) (now : ℕ)

theorem core_configureIpv6Interface (address : Ipv6Address) (len : ℕ)
    (gateway : Option Ipv6Address) :
    (s.configureIpv6Interface address len gateway).core = s.core.configure address := by
  rw [configureIpv6Interface, core_addGateway]
  generalize hr : (({ s with
      ipv6Dad := none, ipv6DadDuplicate := none, ipv6SlaacLifetimes := none, ipv6RaRoutes := ∅
      ipv6FailedRioRouters := ∅
      ipv6RoutingTable := s.ipv6RoutingTable.removeAllFrom .raRoute
      ipv6PathMtuCache := ∅, ipv6RedirectCache := ∅ } : NetStack τ).dropConnected.dropGateway) = r
  have h :
      r.core = { s.core with slaac := none, dad := none, raRoutes := ∅, pathMtuCache := ∅ } := by
    rw [← hr, core_dropGateway, core_dropConnected]
    rfl
  change ({ r.core with config := { r.core.config with ipv6 := some address } } : Core) = _
  rw [h]
  rfl

theorem core_clearIpv6Interface : s.clearIpv6Interface.core = s.core.clear := by
  have h : s.dropConnected.dropGateway.core = s.core := by simp
  change s.dropConnected.dropGateway.core.clear = _
  rw [h]

@[simp] theorem core_stepRouterDiscovery : (s.stepRouterDiscovery now).1.core = s.core := by
  unfold stepRouterDiscovery
  split
  · rfl
  · split
    · rfl
    · dsimp only
      split <;> rfl

theorem core_completeDad : (s.completeDad now).core = s.core.completeDad now := by
  unfold completeDad Core.completeDad Core.dueDad
  cases hd : s.ipv6Dad with
  | none => simp [core, hd]
  | some dad =>
    by_cases hdue : dad.deadlineMs ≤ now
    · simp only [core, hd, Option.map_some, PendingIpv6Dad.terms, Option.filter, hdue, decide_true,
        if_true]
      split
      · have h := core_configureIpv6Interface s dad.address dad.prefixLen
          (if dad.routerUntilMs.any fun d => now < d then dad.gateway else none)
        simp only [core, hd, Option.map_some, PendingIpv6Dad.terms] at h
        simp only [Core.configure, Core.mk.injEq] at h ⊢
        simp [h, Ipv6SlaacLifetimes.terms]
      · simp
    · simp [core, hd, PendingIpv6Dad.terms, hdue, Option.filter]

variable [HashOrder]

theorem core_stepNeighbors : (s.stepNeighbors now).1.core =
    { s.core with ndpTable := (s.core.ndpTable.stepNud now).1 } := rfl

theorem core_dropFailedRioRouters (failed : List Ipv6Address) :
    (s.dropFailedRioRouters failed).core =
      if failed = [] then s.core
      else { s.core with
        raRoutes := Hashed.retain (fun k _ => k.2.1 = 0 ∨ k.2.2 ∉ failed) s.core.raRoutes } := by
  unfold dropFailedRioRouters
  split
  · rfl
  · exact core_selectIpv6RaRoutes _ _

theorem core_dropLostDefaultRouter (active : Option Ipv6Address) :
    (s.dropLostDefaultRouter active).1.core =
      match active.filter fun router => (s.core.ndpTable.lookup router).isNone with
      | none => s.core
      | some router => { s.core with
        raRoutes := Hashed.retain (fun k _ => ¬(k.2.1 = 0 ∧ k.1 = .unspecified ∧ k.2.2 = router))
          s.core.raRoutes } := by
  have hfilter : (active.filter fun router => (s.core.ndpTable.lookup router).isNone) =
    active.filter fun router => (s.ndpTable.lookup router).isNone := rfl
  unfold dropLostDefaultRouter
  rw [hfilter]
  split
  · rfl
  · exact core_selectIpv6DefaultRouter _

theorem core_expireRaRoutes : (s.expireRaRoutes now).1.core =
    { s.core with raRoutes := Hashed.retain (fun _ v => stillValid now v.1) s.core.raRoutes } :=
  core_selectIpv6RaRoutes _ _

theorem core_expireLifetimes (discovering lostRouter : Bool) :
    (s.expireLifetimes now discovering lostRouter).1.core = s.core.expireAddress now := by
  have hcond : s.core.ExpiresAddress now ↔
      (s.ipv6SlaacLifetimes.any fun l => !stillValid now l.validUntilMs) = true := by
    unfold Core.ExpiresAddress
    cases h : s.ipv6SlaacLifetimes <;> simp [core, h, Ipv6SlaacLifetimes.terms]
  unfold expireLifetimes Core.expireAddress
  by_cases h : s.core.ExpiresAddress now
  · rw [if_pos h, if_pos (hcond.mp h)]
    exact core_clearIpv6Interface s
  · rw [if_neg h, if_neg (mt hcond.mpr h)]
    have hexpire := core_expireIpv6DefaultRouters s now
    dsimp only
    split
    · exact hexpire
    · exact hexpire

/-- The candidates that a loss of neighbors leaves. -/
def SurvivesLoss (t t' : NdpTable)
    (m m' : HashMap RaRouteKey (Option ℕ × RouterPreference)) : Prop :=
  ∀ k, m'.lookup k = m.lookup k ∨
    (m'.lookup k = none ∧ (t.lookup k.2.2).isSome ∧ t'.lookup k.2.2 = none)

omit [HashOrder] in
theorem SurvivesLoss.trans {t t' : NdpTable}
    {m m' m'' : HashMap RaRouteKey (Option ℕ × RouterPreference)} (h : SurvivesLoss t t' m m')
    (h' : SurvivesLoss t t' m' m'') : SurvivesLoss t t' m m'' := by
  intro k
  rcases h' k with h' | h'
  · rw [h']
    exact h k
  · exact .inr h'

omit [HashOrder] in
theorem survivesLoss_retain {t t' : NdpTable} {m : HashMap RaRouteKey (Option ℕ × RouterPreference)}
    {p : RaRouteKey → Option ℕ × RouterPreference → Bool}
    (h : ∀ k v, p k v = false → (t.lookup k.2.2).isSome ∧ t'.lookup k.2.2 = none) :
    SurvivesLoss t t' m (Hashed.retain p m) := by
  intro k
  rw [Hashed.lookup_retain]
  cases hk : m.lookup k with
  | none => exact .inl rfl
  | some v =>
    cases hp : p k v with
    | true => exact .inl (by simp [hp])
    | false => exact .inr ⟨by simp [hp], h k v hp⟩

theorem core_stepReachability :
    ∃ m, SurvivesLoss s.ndpTable (s.ndpTable.stepNud now).1 s.ipv6RaRoutes m ∧
      (s.stepReachability now).1.1.core =
        { s.core with ndpTable := (s.ndpTable.stepNud now).1, raRoutes := m } := by
  have hcore := core_stepRouterDiscovery s now
  unfold stepReachability
  dsimp only
  generalize (s.stepRouterDiscovery now).1 = d at hcore ⊢
  have hndp : d.ndpTable = s.ndpTable := congrArg Core.ndpTable hcore
  have hprobed : (d.stepNeighbors now).1.core =
      { s.core with ndpTable := (s.ndpTable.stepNud now).1 } := by
    rw [core_stepNeighbors, hcore]
    rfl
  have hprobedNdp : (d.stepNeighbors now).1.ndpTable = (s.ndpTable.stepNud now).1 :=
    congrArg Core.ndpTable hprobed
  -- the routes through lost routers go first
  obtain ⟨m, hm, hfailed⟩ :
      ∃ m, SurvivesLoss s.ndpTable (s.ndpTable.stepNud now).1 s.ipv6RaRoutes m ∧
      (((d.stepNeighbors now).1.dropFailedRioRouters (d.cachedRioRouters.filter fun router =>
        ((d.stepNeighbors now).1.ndpTable.lookup router).isNone)).reselectIpv6RaRoutes).core =
        { s.core with ndpTable := (s.ndpTable.stepNud now).1, raRoutes := m } := by
    rw [core_reselectIpv6RaRoutes, core_dropFailedRioRouters, hprobed]
    split
    · exact ⟨s.ipv6RaRoutes, fun k => .inl rfl, rfl⟩
    · refine ⟨_, survivesLoss_retain ?_, rfl⟩
      intro k v hk
      simp only [Bool.decide_or, Bool.or_eq_false_iff, decide_eq_false_iff_not, not_not,
        List.mem_filter, cachedRioRouters, List.mem_dedup, hprobedNdp, hndp,
        Option.isNone_iff_eq_none]
        at hk
      exact ⟨hk.2.1.2, hk.2.2⟩
  rw [core_dropLostDefaultRouter, hfailed]
  dsimp only
  split
  · exact ⟨m, hm, rfl⟩
  · -- then those of the active default router
    rename_i router hrouter
    obtain ⟨hactive, hnone⟩ := Option.filter_eq_some_iff.mp hrouter
    obtain ⟨-, hsome⟩ := Option.filter_eq_some_iff.mp hactive
    refine ⟨_, hm.trans (survivesLoss_retain ?_), rfl⟩
    intro k v hk
    simp only [Bool.decide_and, decide_not, Bool.not_eq_eq_eq_not, Bool.not_false, Bool.and_eq_true,
      decide_eq_true_eq] at hk
    simp only [Bool.decide_and, Bool.and_eq_true, decide_eq_true_eq, hndp] at hsome
    rw [hk.2.2]
    exact ⟨hsome.2, by simpa using hnone⟩

omit [HashOrder] in
/-- What a send does to the rest, for whatever sends alone keep. -/
theorem core_transmit {P : Core → Prop} (hP : ∀ c nextHop bytes, P c → P (c.sendIp nextHop bytes))
    (txs : List Outgoing) (h : P s.core) : P (s.transmit txs).1.core := by
  induction txs generalizing s with
  | nil => exact h
  | cons tx rest ih =>
    apply ih
    rw [core_sendIpPacket]
    exact hP _ _ _ h

/-- The pump in four parts: what is lost, what runs out, what begins and ends, what is sent. -/
theorem core_stepTimers [Transports τ] {P : Core → Prop}
    (hP : ∀ c nextHop bytes, P c → P (c.sendIp nextHop bytes))
    (h : ∀ m, SurvivesLoss s.ndpTable (s.ndpTable.stepNud now).1 s.ipv6RaRoutes m →
      P ((Core.completeDad { s.core with
        time := now
        ndpTable := (s.ndpTable.stepNud now).1
        raRoutes := Hashed.retain (fun _ v => stillValid now v.1) m } now).expireAddress now)) :
    P (s.stepTimers now).1.core := by
  obtain ⟨m, hm, hreach⟩ := core_stepReachability { s with currentTimeMs := now } now
  unfold stepTimers
  refine core_transmit _ hP _ ?_
  change P (expireLifetimes _ now _ _).1.core
  rw [core_expireLifetimes, core_completeDad, core_expireRaRoutes]
  have hprefixes : ∀ r : NetStack τ, (r.expireRaOnLinkPrefixes now).core = r.core := fun r => rfl
  rw [hprefixes, hreach]
  exact h m hm

end core

end ToyTcpip.NetStack
