import ToyTcpip.Routing.Lookup
import ToyTcpip.Stack.Runs

/-! The default routers that a host lists: along every run, each of them once. -/
namespace ToyTcpip.NetStack

open Hashed (HashMap HashOrder)

variable {τ : Type}

/-! ### The listed default routers along runs -/

section listed

variable (s : NetStack τ)

@[simp] theorem routers_dropConnected : s.dropConnected.ipv6DefaultRouters =
    s.ipv6DefaultRouters := by
  unfold dropConnected
  split <;> rfl

@[simp] theorem routers_dropGateway : s.dropGateway.ipv6DefaultRouters = s.ipv6DefaultRouters := by
  unfold dropGateway
  split <;> rfl

@[simp] theorem routers_addGateway (gateway : Option Ipv6Address) :
    (s.addGateway gateway).ipv6DefaultRouters = s.ipv6DefaultRouters := by
  cases gateway <;> rfl

@[simp] theorem routers_setIpv6DefaultGateway (gateway : Option Ipv6Address) :
    (s.setIpv6DefaultGateway gateway).ipv6DefaultRouters = s.ipv6DefaultRouters := by
  rw [setIpv6DefaultGateway, routers_addGateway]
  split
  · exact routers_dropGateway { s with ipv6RedirectCache := ∅ }
  · exact routers_dropGateway s

@[simp] theorem routers_configureIpv6Interface (address : Ipv6Address) (len : ℕ)
    (gateway : Option Ipv6Address) :
    (s.configureIpv6Interface address len gateway).ipv6DefaultRouters = s.ipv6DefaultRouters := by
  rw [configureIpv6Interface, routers_addGateway]
  exact (routers_dropGateway _).trans (routers_dropConnected _)

@[simp] theorem routers_startIpv6Dad (address : Ipv6Address) (len : ℕ)
    (gateway : Option Ipv6Address) (preferredLifetime validLifetime routerLifetime : ℕ) :
    (s.startIpv6Dad address len gateway preferredLifetime validLifetime
      routerLifetime).1.ipv6DefaultRouters = s.ipv6DefaultRouters := by
  unfold startIpv6Dad
  dsimp only
  split
  · rfl
  · split
    · exact routers_setIpv6DefaultGateway s gateway
    · split <;> rfl

@[simp] theorem routers_markIpv6DadDuplicate (address : Ipv6Address) :
    (s.markIpv6DadDuplicate address).ipv6DefaultRouters = s.ipv6DefaultRouters := by
  unfold markIpv6DadDuplicate
  split <;> rfl

@[simp] theorem routers_sendIpPacket (dst : Ipv4Address) (bytes : List UInt8) :
    (s.sendIpPacket dst bytes).1.ipv6DefaultRouters = s.ipv6DefaultRouters := by
  unfold sendIpPacket
  dsimp only
  split <;> rfl

@[simp] theorem routers_sendIp6Packet (dst : Ipv6Address) (bytes : List UInt8) :
    (s.sendIp6Packet dst bytes).1.ipv6DefaultRouters = s.ipv6DefaultRouters := by
  have hvia : ∀ (s : NetStack τ) nextHop,
      (s.sendIp6Via nextHop bytes).1.ipv6DefaultRouters = s.ipv6DefaultRouters := by
    intro s nextHop
    unfold sendIp6Via
    dsimp only
    split <;> rfl
  have hhop : (s.ipv6NextHop dst).1.ipv6DefaultRouters = s.ipv6DefaultRouters := by
    unfold ipv6NextHop
    split
    · split <;> rfl
    · rfl
  unfold sendIp6Packet
  split
  · rfl
  · exact (hvia _ _).trans hhop

@[simp] theorem routers_transmit (txs : List Outgoing) :
    (s.transmit txs).1.ipv6DefaultRouters = s.ipv6DefaultRouters := by
  induction txs generalizing s with
  | nil => rfl
  | cons tx rest ih => exact (ih _).trans (routers_sendIpPacket _ _ _)

@[simp] theorem routers_answerAll (replies : List (MacAddress × Outgoing)) :
    (s.answerAll replies).1.ipv6DefaultRouters = s.ipv6DefaultRouters := by
  induction replies generalizing s with
  | nil => rfl
  | cons reply rest ih => exact ih _

section ordered

variable [HashOrder]

@[simp] theorem routers_selectIpv6DefaultRouter :
    s.selectIpv6DefaultRouter.ipv6DefaultRouters = s.ipv6DefaultRouters := by
  have h : (if s.ipv6Gateway ≠ s.bestDefaultRouter then
      s.setIpv6DefaultGateway s.bestDefaultRouter else s).ipv6DefaultRouters =
          s.ipv6DefaultRouters := by
    split
    · exact routers_setIpv6DefaultGateway s _
    · rfl
  exact h

@[simp] theorem routers_selectIpv6RaRoute (address : Ipv6Address) (len : ℕ) :
    (s.selectIpv6RaRoute address len).ipv6DefaultRouters = s.ipv6DefaultRouters := by
  unfold selectIpv6RaRoute
  dsimp only
  split
  · exact routers_selectIpv6DefaultRouter _
  · split <;> rfl

@[simp] theorem routers_selectIpv6RaRoutes (prefixes : List (Ipv6Address × ℕ)) :
    (s.selectIpv6RaRoutes prefixes).ipv6DefaultRouters = s.ipv6DefaultRouters := by
  unfold selectIpv6RaRoutes
  induction prefixes generalizing s with
  | nil => rfl
  | cons p rest ih => exact (ih _).trans (routers_selectIpv6RaRoute s p.1 p.2)

@[simp] theorem routers_reselectIpv6RaRoutes :
    s.reselectIpv6RaRoutes.ipv6DefaultRouters = s.ipv6DefaultRouters :=
  routers_selectIpv6RaRoutes s _

@[simp] theorem routers_reconsiderRouter (target : Ipv6Address) :
    (s.reconsiderRouter target).ipv6DefaultRouters = s.ipv6DefaultRouters := by
  unfold reconsiderRouter
  split
  · exact routers_selectIpv6DefaultRouter s
  · rfl

end ordered

end listed

/-! ### One entry for each router -/

/-- The list with the entry of a router replaced. -/
def replaced (router : Ipv6Address) (v : Option ℕ × RouterPreference) (l : List Candidate) :
    List Candidate := l.map fun c => if c.1 = router then (router, v) else c

theorem keys_replaced (router : Ipv6Address) (v : Option ℕ × RouterPreference)
    (l : List Candidate) : (replaced router v l).map Prod.fst = l.map Prod.fst := by
  rw [replaced, List.map_map]
  refine List.map_congr_left fun c _ => ?_
  dsimp only [Function.comp]
  split
  · rename_i h
    exact h.symm
  · rfl

theorem replaceOrPush_of_mem {router : Ipv6Address} {v : Option ℕ × RouterPreference}
    {l : List Candidate} (hkeys : (l.map Prod.fst).Nodup) (h : router ∈ l.map Prod.fst) :
    Routing.replaceOrPush (fun c => c.1 = router) (router, v) l = replaced router v l := by
  induction l with
  | nil => simp at h
  | cons c rest ih =>
    rw [List.map_cons, List.nodup_cons] at hkeys
    rw [Routing.replaceOrPush_cons, replaced, List.map_cons]
    by_cases hc : c.1 = router
    · have hrest : rest.map (fun c => if c.1 = router then (router, v) else c) = rest := by
        refine (List.map_congr_left fun d hd => if_neg fun heq => ?_).trans (List.map_id rest)
        exact hkeys.1 (hc.trans heq.symm ▸ List.mem_map_of_mem hd)
      rw [if_pos (by simpa using hc), if_pos hc, hrest]
    · rw [if_neg (by simpa using hc), if_neg hc]
      have hin : router ∈ rest.map Prod.fst := by
        rcases List.mem_cons.mp h with heq | hin
        · exact absurd heq.symm hc
        · exact hin
      rw [ih hkeys.2 hin]
      rfl

theorem replaceOrPush_of_not_mem {router : Ipv6Address} {v : Option ℕ × RouterPreference}
    {l : List Candidate} (h : router ∉ l.map Prod.fst) :
    Routing.replaceOrPush (fun c => c.1 = router) (router, v) l = l ++ [(router, v)] := by
  induction l with
  | nil => rfl
  | cons c rest ih =>
    rw [List.map_cons, List.mem_cons, not_or] at h
    rw [Routing.replaceOrPush_cons, if_neg (by simpa using fun heq => h.1 (Eq.symm heq)), ih h.2,
      List.cons_append]

/-- A router is listed at most once. -/
def DistinctRouters (s : NetStack τ) : Prop := (s.ipv6DefaultRouters.map Prod.fst).Nodup

namespace DistinctRouters

variable {s s' : NetStack τ}

theorem sublist (h : s.DistinctRouters) (hs : s'.ipv6DefaultRouters.Sublist s.ipv6DefaultRouters) :
    s'.DistinctRouters := List.Nodup.sublist (hs.map _) h

theorem congr (h : s.DistinctRouters) (hs : s'.ipv6DefaultRouters = s.ipv6DefaultRouters) :
    s'.DistinctRouters := h.sublist (hs ▸ List.Sublist.refl _)

variable [HashOrder]

theorem refreshSlaacDefaultRouter (h : s.DistinctRouters) (router : Ipv6Address) (lifetimeSecs : ℕ)
    (preference : RouterPreference) :
    (s.refreshSlaacDefaultRouter router lifetimeSecs preference).DistinctRouters := by
  unfold NetStack.refreshSlaacDefaultRouter
  refine DistinctRouters.congr ?_ (routers_selectIpv6DefaultRouter _)
  unfold DistinctRouters at h ⊢
  dsimp only
  split
  · exact h.sublist (List.filter_sublist.map _)
  · by_cases hmem : router ∈ s.ipv6DefaultRouters.map Prod.fst
    · rw [replaceOrPush_of_mem h hmem, keys_replaced]
      exact h
    · rw [replaceOrPush_of_not_mem hmem, List.map_append]
      exact List.nodup_append.mpr ⟨h, by simp, fun a ha b hb heq => hmem (by simp_all)⟩

theorem applyRaRoutes (h : s.DistinctRouters) (router : Ipv6Address)
    (routes : List RouteInformationOption) : (s.applyRaRoutes router routes).DistinctRouters := by
  unfold NetStack.applyRaRoutes
  induction routes generalizing s with
  | nil => exact h
  | cons route rest ih => exact ih (h.congr (routers_selectIpv6RaRoute _ _ _))

theorem processRouterAdvert (h : s.DistinctRouters) (packet : Ipv6Packet) (icmp : Icmpv6Packet) :
    (s.processRouterAdvert packet icmp).1.DistinctRouters := by
  unfold NetStack.processRouterAdvert
  split
  · exact h
  · rename_i ra _
    have hmtu : ((s.applyRaParameters ra).applyRaMtu ra).DistinctRouters := by
      unfold applyRaMtu
      split <;> exact h
    have hsource : ((((s.applyRaParameters ra).applyRaMtu ra).learnRaSource packet.header.srcIp
        icmp.ndpSourceLinkLayerAddress).cancelRouterDiscovery).DistinctRouters := by
      unfold learnRaSource
      split <;> exact hmtu
    dsimp only
    generalize (((s.applyRaParameters ra).applyRaMtu ra).learnRaSource packet.header.srcIp
        icmp.ndpSourceLinkLayerAddress).cancelRouterDiscovery = s₁ at hsource ⊢
    have hheader : (s₁.applyRaHeader packet.header.srcIp ra).DistinctRouters := by
      unfold applyRaHeader
      split
      · refine congr ?_ (routers_selectIpv6DefaultRouter _)
        exact hsource.sublist List.filter_sublist
      · exact hsource.refreshSlaacDefaultRouter _ _ _
    have hroutes := hheader.applyRaRoutes packet.header.srcIp ra.routes
    generalize (s₁.applyRaHeader packet.header.srcIp ra).applyRaRoutes packet.header.srcIp
        ra.routes = s₂ at hroutes ⊢
    have hprefixes : (s₂.applyRaPrefixes ra.prefixes).DistinctRouters := by
      unfold applyRaPrefixes
      generalize ra.prefixes.filter _ = prefixes
      induction prefixes generalizing s₂ with
      | nil => exact hroutes
      | cons p rest ih =>
        refine ih _ (hroutes.congr ?_)
        unfold refreshIpv6RaOnLinkPrefix
        dsimp only
        split <;> rfl
    generalize s₂.applyRaPrefixes ra.prefixes = s₃ at hprefixes ⊢
    unfold applyRaAddress
    split
    · exact hprefixes
    · split
      · exact hprefixes
      · exact hprefixes.congr (routers_startIpv6Dad _ _ _ _ _ _ _)

theorem processNeighborAdvert (h : s.DistinctRouters) (eth : EthernetFrame) (packet : Ipv6Packet)
    (icmp : Icmpv6Packet) : (s.processNeighborAdvert eth packet icmp).1.DistinctRouters := by
  have hfinish : ∀ {s : NetStack τ} target, s.DistinctRouters →
      (s.finishAdvert icmp target).DistinctRouters := by
    intro s target h
    refine DistinctRouters.congr ?_ (routers_reselectIpv6RaRoutes _)
    split <;> exact h
  unfold NetStack.processNeighborAdvert
  split
  · exact h
  · rename_i target _
    have hnoticed : (s.noticeDuplicate eth target).DistinctRouters := by
      unfold noticeDuplicate
      split
      · exact h.congr (routers_markIpv6DadDuplicate s target)
      · exact h
    dsimp only
    generalize s.noticeDuplicate eth target = s₁ at hnoticed ⊢
    split
    · rename_i current _
      have hneighbor : (s₁.refreshNeighbor icmp target current).DistinctRouters := by
        unfold refreshNeighbor
        dsimp only
        split
        · exact hnoticed
        · split
          · exact hnoticed
          · split <;> exact hnoticed
      refine hfinish target ?_
      unfold refreshRouterFlag
      split
      · exact hneighbor.refreshSlaacDefaultRouter _ _ _
      · exact hneighbor.congr (routers_reconsiderRouter _ _)
    · split
      · split
        · exact hnoticed
        · refine hfinish target ?_
          unfold resolveNeighbor
          dsimp only
          split
          · exact hnoticed.congr (routers_reconsiderRouter _ _)
          · exact hnoticed
      · exact hfinish target hnoticed

theorem processFrame [Transports τ] (h : s.DistinctRouters) (raw : Frame) :
    (s.processFrame raw).1.DistinctRouters := by
  unfold NetStack.processFrame
  split
  · exact h
  · split
    · unfold processArp
      split <;> exact h
    · unfold processIpv4
      split
      · exact h
      · dsimp only
        split
        · exact h
        · exact h.congr (routers_answerAll _ _)
    · unfold processIpv6
      split
      · exact h
      · split
        · unfold processPacketTooBig
          split <;> exact h
        · split
          · unfold processRedirect
            split <;> exact h
          · split
            · exact h.processRouterAdvert _ _
            · split
              · exact h
              · split
                · unfold processNeighborSolicit noticeDuplicate
                  split
                  · exact h
                  · dsimp only
                    split <;> split <;>
                      first | exact h | exact h.congr (routers_markIpv6DadDuplicate _ _)
                · split
                  · exact h.processNeighborAdvert _ _ _
                  · exact h
    · exact h

theorem stepReachability (h : s.DistinctRouters) (now : ℕ) :
    (s.stepReachability now).1.1.DistinctRouters := by
  have hdiscovered : (s.stepRouterDiscovery now).1.DistinctRouters := by
    unfold stepRouterDiscovery
    split
    · exact h
    · split
      · exact h
      · dsimp only
        split <;> exact h
  unfold NetStack.stepReachability
  dsimp only
  generalize (s.stepRouterDiscovery now).1 = s₁ at hdiscovered ⊢
  have hprobed : (s₁.stepNeighbors now).1.DistinctRouters := hdiscovered
  generalize (s₁.stepNeighbors now).1 = s₂ at hprobed ⊢
  generalize (s₁.cachedRioRouters.filter fun router => (s₂.ndpTable.lookup router).isNone) = failed
  have hdropped : ((s₂.dropFailedRioRouters failed).reselectIpv6RaRoutes).DistinctRouters := by
    refine DistinctRouters.congr ?_ (routers_reselectIpv6RaRoutes _)
    unfold dropFailedRioRouters
    split
    · exact hprobed
    · exact hprobed.congr (routers_selectIpv6RaRoutes _ _)
  generalize (s₂.dropFailedRioRouters failed).reselectIpv6RaRoutes = s₃ at hdropped ⊢
  unfold dropLostDefaultRouter
  split
  · exact hdropped
  · exact DistinctRouters.congr (hdropped.sublist List.filter_sublist)
      (routers_selectIpv6DefaultRouter _)

theorem stepTimers [Transports τ] (h : s.DistinctRouters) (now : ℕ) :
    (s.stepTimers now).1.DistinctRouters := by
  have hclock : ({ s with currentTimeMs := now } : NetStack τ).DistinctRouters := h
  have hreached := hclock.stepReachability now
  unfold NetStack.stepTimers
  dsimp only
  generalize (NetStack.stepReachability { s with currentTimeMs := now } now) = r at hreached ⊢
  have hexpired : ((r.1.1.expireRaOnLinkPrefixes now).expireRaRoutes now).1.DistinctRouters :=
    DistinctRouters.congr hreached (routers_selectIpv6RaRoutes _ _)
  generalize (r.1.1.expireRaOnLinkPrefixes now).expireRaRoutes now = e at hexpired ⊢
  have hdad : (e.1.completeDad now).DistinctRouters := by
    unfold completeDad
    split
    · exact hexpired
    · split
      · exact hexpired.congr (routers_configureIpv6Interface _ _ _ _)
      · exact hexpired
  have hlived : ((e.1.completeDad now).expireLifetimes now s.ipv6RouterDiscovery.isSome
      (r.1.2 || e.2)).1.DistinctRouters := by
    unfold expireLifetimes
    split
    · exact hdad.sublist (List.nil_sublist _)
    · have hold : ((e.1.completeDad now).expireIpv6DefaultRouters now).1.DistinctRouters :=
        DistinctRouters.congr (hdad.sublist List.filter_sublist) (routers_selectIpv6DefaultRouter _)
      dsimp only
      split <;> exact hold
  exact DistinctRouters.congr hlived (routers_transmit _ _)

/-- Every call keeps the list of default routers free of repetitions. -/
theorem step [Transports τ] (h : s.DistinctRouters) (c : Call τ) : (s.step c).DistinctRouters := by
  cases c with
  | sendIpPacket dst bytes => exact h.congr (routers_sendIpPacket s dst bytes)
  | sendIp6Packet dst bytes => exact h.congr (routers_sendIp6Packet s dst bytes)
  | processFrame raw => exact h.processFrame raw
  | stepTimers now => exact h.stepTimers now.toNat
  | pollTransmit => exact h.stepTimers s.currentTimeMs
  | configureIpv6Interface address len gateway =>
    exact h.congr (routers_configureIpv6Interface s address len.toNat gateway)
  | clearIpv6Interface => exact h.sublist (List.nil_sublist _)
  | startRouterDiscovery | cancelRouterDiscovery | clearIpv6PathMtu | applyDhcpAck | nextIpId
  | setFirewall | app => exact h

end DistinctRouters

theorem distinctRouters_run [HashOrder] [Transports τ] (config : NetStackConfig) (transports : τ)
    (calls : List (Call τ)) : (Machine.run step (new config transports) calls).DistinctRouters := by
  have hnew : (new config transports).DistinctRouters := List.nodup_nil
  exact Machine.run_keeps (fun _ c h => h.step c) calls hnew

end ToyTcpip.NetStack
