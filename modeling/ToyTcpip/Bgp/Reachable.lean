import ToyTcpip.Bgp.Runs

/-! Configuration calls and the states the speaker can get into. -/
namespace ToyTcpip.Bgp

/-- The calls that only touch the configuration. -/
inductive Config where
  | setClusterId (id : Ipv4Address)
  | setRouteReflectorClient (addr : Ipv4Address) (on : Bool)
  | setRetainAllRouteTargets (on : Bool)
  | setHoldTime (seconds : UInt16)
  | setConnectRetryMs (ms : ℕ)
  | setEnhancedRouteRefreshEnabled (enabled : Bool)
  | setGracefulRestartEnabled (enabled : Bool)
  | setGracefulRestartTime (seconds : UInt16)
  | setGracefulRestartForwardingPreserved (family : AfiSafi) (preserved : Bool)
  | markGracefulRestartFamilyRecovered (family : AfiSafi)
  | addPeer (addr : Ipv4Address) (remoteAs : UInt32) (localAddr : Ipv4Address) (mode : BgpPeerMode)
  | setImportPolicy (addr : Ipv4Address) (policy : RoutePolicy)
  | setExportPolicy (addr : Ipv4Address) (policy : RoutePolicy)
  | setNextHopSelf (addr : Ipv4Address) (on : Bool)
  | setMaxPrefixes (addr : Ipv4Address) (limit : ℕ)
  | setEnforceFirstAs (addr : Ipv4Address) (on : Bool)
  | enablePeer (addr : Ipv4Address)
  | enableFamily (family : AfiSafi)
  | originate (pfx : Ipv4Prefix) (nextHop : Ipv4Address)
  | withdrawOriginated (pfx : Ipv4Prefix)
  | setIpv6NextHop (address : Ipv6Address)
  | originateIpv6 (pfx : Ipv6Prefix) (nextHop : Ipv6Address)
  | withdrawOriginatedIpv6 (pfx : Ipv6Prefix)
  | addImportRouteTarget (rt : RouteTarget)
  | removeImportRouteTarget (rt : RouteTarget)
  | originateEvpn (route : EvpnRoute)
  | withdrawEvpn (key : EvpnRouteKey)

def Config.apply (r : BgpRouter) : Config → BgpRouter
  | .setClusterId id => r.setClusterId id
  | .setRouteReflectorClient addr on => r.setRouteReflectorClient addr on
  | .setRetainAllRouteTargets on => r.setRetainAllRouteTargets on
  | .setHoldTime seconds => r.setHoldTime seconds
  | .setConnectRetryMs ms => r.setConnectRetryMs ms
  | .setEnhancedRouteRefreshEnabled enabled => r.setEnhancedRouteRefreshEnabled enabled
  | .setGracefulRestartEnabled enabled => r.setGracefulRestartEnabled enabled
  | .setGracefulRestartTime seconds => r.setGracefulRestartTime seconds
  | .setGracefulRestartForwardingPreserved family preserved =>
    r.setGracefulRestartForwardingPreserved family preserved
  | .markGracefulRestartFamilyRecovered family => r.markGracefulRestartFamilyRecovered family
  | .addPeer addr remoteAs localAddr mode => r.addPeer addr remoteAs localAddr mode
  | .setImportPolicy addr policy => r.setImportPolicy addr policy
  | .setExportPolicy addr policy => r.setExportPolicy addr policy
  | .setNextHopSelf addr on => r.setNextHopSelf addr on
  | .setMaxPrefixes addr limit => r.setMaxPrefixes addr limit
  | .setEnforceFirstAs addr on => r.setEnforceFirstAs addr on
  | .enablePeer addr => r.enablePeer addr
  | .enableFamily family => r.enableFamily family
  | .originate pfx nextHop => r.originate pfx nextHop
  | .withdrawOriginated pfx => r.withdrawOriginated pfx
  | .setIpv6NextHop address => r.setIpv6NextHop address
  | .originateIpv6 pfx nextHop => r.originateIpv6 pfx nextHop
  | .withdrawOriginatedIpv6 pfx => r.withdrawOriginatedIpv6 pfx
  | .addImportRouteTarget rt => r.addImportRouteTarget rt
  | .removeImportRouteTarget rt => r.removeImportRouteTarget rt
  | .originateEvpn route => r.originateEvpn route
  | .withdrawEvpn key => r.withdrawEvpn key

/-- The worlds reached by any sequence of polls and of calls that meet a condition, with anything at
all happening in the sockets in between, and the time of the latest of them. -/
inductive ReachableBy (ok : BgpRouter → Config → Prop) {σ : Type} (io : SocketRuntime σ) :
    World σ → ℕ → Prop
  | start (localAs : UInt32) (routerId : Ipv4Address) (s : σ) :
      ReachableBy ok io ⟨.new localAs routerId, s, []⟩ 0
  | network {w : World σ} {t : ℕ} (s : σ) :
      ReachableBy ok io w t → ReachableBy ok io { w with sockets := s } t
  | configure {w : World σ} {t : ℕ} (c : Config) (hc : ok w.router c) :
      ReachableBy ok io w t → ReachableBy ok io (w.withRouter c.apply) t
  | poll {w : World σ} {t nowMs : ℕ} : ReachableBy ok io w t → t ≤ nowMs →
      ReachableBy ok io (w.poll io nowMs) nowMs
  | shutdownPeer {w : World σ} {t nowMs : ℕ} (addr : Ipv4Address) : ReachableBy ok io w t →
      t ≤ nowMs → ReachableBy ok io (w.shutdownPeer io addr nowMs) nowMs
  | requestRouteRefresh {w : World σ} {t : ℕ} (addr : Ipv4Address) (family : AfiSafi) :
      ReachableBy ok io w t → ReachableBy ok io (w.requestRouteRefresh io addr family) t
  | beginGracefulRestart {w : World σ} {t nowMs : ℕ} : ReachableBy ok io w t → t ≤ nowMs →
      ReachableBy ok io (w.beginGracefulRestart io nowMs) nowMs

/-- Whatever the calls. -/
abbrev Reachable {σ : Type} (io : SocketRuntime σ) : World σ → ℕ → Prop :=
  ReachableBy (fun _ _ => True) io

theorem ReachableBy.reachable {ok : BgpRouter → Config → Prop} {σ : Type} {io : SocketRuntime σ}
    {w : World σ} {t : ℕ} (h : ReachableBy ok io w t) : Reachable io w t := by
  induction h with
  | start localAs routerId s => exact .start localAs routerId s
  | network s _ ih => exact ih.network s
  | configure c _ _ ih => exact ih.configure c trivial
  | poll _ ht ih => exact ih.poll ht
  | shutdownPeer addr _ ht ih => exact ih.shutdownPeer addr ht
  | requestRouteRefresh addr family _ ih => exact ih.requestRouteRefresh addr family
  | beginGracefulRestart _ ht ih => exact ih.beginGracefulRestart ht

/-! ### Sessions by address -/

/-- The session of a peer that was never heard of, or was just added. -/
def Session.idle (addr : Ipv4Address) : Session := ⟨addr, .idle, false, {}, {}⟩

def BgpRouter.sessionOf (r : BgpRouter) (addr : Ipv4Address) : Session :=
  ((r.peer addr).map BgpPeer.session).getD (.idle addr)

def Restart.isStale (s : Restart) (family : AfiSafi) (receivedAtMs : ℕ) : Bool :=
  s.stale.contains family && s.cutoff.all fun c => receivedAtMs < c

namespace BgpRouter

variable {r r' : BgpRouter} {addr a : Ipv4Address} {idx : ℕ} {f : BgpPeer → BgpPeer} {p : BgpPeer}

theorem isStale_sessionOf {family : AfiSafi} {t : ℕ} :
    r.routeIsGracefulRestartStale addr family t = (r.sessionOf addr).restart.isStale family t := by
  unfold routeIsGracefulRestartStale sessionOf
  cases r.peer addr with
  | none => simp [Session.idle, Restart.isStale]
  | some p => rfl

theorem peer_eq_some_iff (hn : r.addrs.Nodup) :
    r.peer addr = some p ↔ p ∈ r.peers ∧ p.addr = addr := by
  constructor
  · intro h
    exact ⟨List.mem_of_find?_eq_some h, by simpa using List.find?_some h⟩
  · rintro ⟨hmem, rfl⟩
    obtain ⟨q, hq⟩ : ∃ q, r.peer p.addr = some q := by
      rw [← Option.isSome_iff_exists, peer, List.find?_isSome]
      exact ⟨p, hmem, by simp⟩
    have hqmem := List.mem_of_find?_eq_some hq
    have hqaddr : q.addr = p.addr := by simpa using List.find?_some hq
    rw [hq, List.inj_on_of_nodup_map hn hqmem hmem hqaddr]

theorem peer_eq_none_iff : r.peer addr = none ↔ addr ∉ r.addrs := by
  simp only [peer, List.find?_eq_none, decide_eq_true_eq, addrs, List.mem_map, not_exists, not_and]

theorem sessionOf_eq (hn : r.addrs.Nodup) (hp : p ∈ r.peers) : r.sessionOf p.addr = p.session := by
  rw [sessionOf, (peer_eq_some_iff hn).mpr ⟨hp, rfl⟩]
  rfl

theorem sessionOf_peerAt (hn : r.addrs.Nodup) (hidx : idx < r.peers.length) :
    r.sessionOf (r.peerAt idx).addr = (r.peerAt idx).session :=
  sessionOf_eq hn (peerAt_mem hidx)

theorem sessionOf_stranger (h : addr ∉ r.addrs) : r.sessionOf addr = .idle addr := by
  rw [sessionOf, peer_eq_none_iff.mpr h]
  rfl

/-- A session belongs to a neighbour, or is idle. -/
theorem sessionOf_cases (hn : r.addrs.Nodup) (a : Ipv4Address) :
    (∃ p ∈ r.peers, p.addr = a ∧ r.sessionOf a = p.session) ∨
      (a ∉ r.addrs ∧ r.sessionOf a = .idle a) := by
  by_cases ha : a ∈ r.addrs
  · obtain ⟨p, hp, rfl⟩ := List.mem_map.mp ha
    exact .inl ⟨p, hp, rfl, sessionOf_eq hn hp⟩
  · exact .inr ⟨ha, sessionOf_stranger ha⟩

theorem sessionOf_updatePeer (hn : r.addrs.Nodup) (hidx : idx < r.peers.length)
    (haddr : (f (r.peerAt idx)).addr = (r.peerAt idx).addr) :
    (r.updatePeer idx f).sessionOf a =
      if (r.peerAt idx).addr = a then (f (r.peerAt idx)).session else r.sessionOf a := by
  have haddrs := addrs_updatePeer hidx haddr
  have hn' : (r.updatePeer idx f).addrs.Nodup := by rwa [haddrs]
  by_cases ha : (r.peerAt idx).addr = a
  · subst ha
    have hidx' : idx < (r.updatePeer idx f).peers.length := by simpa using hidx
    have hself := sessionOf_peerAt hn' hidx'
    simp only [peerAt_updatePeer hidx, ↓reduceIte, haddr] at hself
    simpa using hself
  · rw [if_neg ha]
    rcases sessionOf_cases hn a with ⟨p, hp, rfl, hs⟩ | ⟨hnot, hs⟩
    · obtain ⟨j, hj, rfl⟩ := mem_peers_iff.mp hp
      have hne : idx ≠ j := by
        rintro rfl
        exact ha rfl
      have hj' : j < (r.updatePeer idx f).peers.length := by simpa using hj
      have hself := sessionOf_peerAt hn' hj'
      simp only [peerAt_updatePeer hidx, hne, ↓reduceIte] at hself
      rw [hself, hs]
    · rw [hs, sessionOf_stranger (by rwa [haddrs])]

theorem sessionOf_of_sessions (h : r'.peers.map BgpPeer.session = r.peers.map BgpPeer.session) :
    r'.sessionOf a = r.sessionOf a := by
  have hfind : ∀ l : List BgpPeer, ((l.find? fun p => p.addr = a).map BgpPeer.session) =
      (l.map BgpPeer.session).find? fun s => s.addr = a := by
    intro l
    rw [List.find?_map]
    rfl
  simp only [sessionOf, peer, hfind, h]

end BgpRouter

/-! ### What configuration leaves alone -/

/-- A family's tables after a configuration call: what was advertised and chosen stays, paths may go
but keep their dates, and without the mark nothing has changed. -/
structure RibConfigured {κ π ρ ο : Type} [Ord κ] [RoutePath π κ]
    (rib rib' : Rib κ π ρ ο) : Prop where
  adjRibOut : rib'.adjRibOut = rib.adjRibOut
  locRib : rib'.locRib = rib.locRib
  clean : rib'.dirty = false → rib' = rib
  held : ∀ a k, rib'.adjRibIn.get? a k = none ∨
    (rib'.adjRibIn.get? a k).map RoutePath.receivedAtMs =
      (rib.adjRibIn.get? a k).map RoutePath.receivedAtMs
  paths : ∀ a k p, rib'.adjRibIn.get? a k = some p →
    ∃ q, rib.adjRibIn.get? a k = some q ∧ (p = q ∨ ∃ on, p = RoutePath.setFromClient on q)

namespace RibConfigured

variable {κ π ρ ο : Type} [Ord κ] [RoutePath π κ] {rib : Rib κ π ρ ο} {k : κ}

theorem of_adjRibIn {rib' : Rib κ π ρ ο} (hin : rib'.adjRibIn = rib.adjRibIn)
    (hout : rib'.adjRibOut = rib.adjRibOut) (hloc : rib'.locRib = rib.locRib)
    (hclean : rib'.dirty = false → rib' = rib) : RibConfigured rib rib' :=
  ⟨hout, hloc, hclean, fun _ _ => .inr (by rw [hin]), fun _ _ p hp => ⟨p, by rwa [← hin], .inl rfl⟩⟩

theorem refl : RibConfigured rib rib := .of_adjRibIn rfl rfl rfl fun _ => rfl

theorem flagged : RibConfigured rib { rib with dirty := true } :=
  .of_adjRibIn rfl rfl rfl (by simp)

theorem originate {route : ο} : RibConfigured rib (rib.originate k route) :=
  .of_adjRibIn rfl rfl rfl (by simp [Rib.originate])

theorem withdrawOriginated : RibConfigured rib (rib.withdrawOriginated k) := by
  unfold Rib.withdrawOriginated
  split
  · exact .of_adjRibIn rfl rfl rfl (by simp)
  · exact .refl

theorem markFromClient [DecidableEq κ] [Std.TransOrd κ] [Std.LawfulEqOrd κ] {addr : Ipv4Address}
    {on : Bool} (h : ∀ b (p : π), RoutePath.receivedAtMs (RoutePath.setFromClient b p) =
      RoutePath.receivedAtMs p) : RibConfigured rib (rib.markFromClient addr on) := by
  have hget : ∀ a k, (rib.markFromClient addr on).adjRibIn.get? a k =
      if addr = a then (rib.adjRibIn.get? a k).map (RoutePath.setFromClient on)
      else rib.adjRibIn.get? a k := fun a k => by simp [Rib.markFromClient, Nested.get?_mapTable]
  refine ⟨rfl, rfl, by simp [Rib.markFromClient], ?_, ?_⟩
  · intro a k
    right
    rw [hget]
    split
    · rw [Option.map_map]
      congr 1
      funext p
      exact h on p
    · rfl
  · intro a k p hp
    rw [hget] at hp
    split at hp
    · obtain ⟨q, hq, rfl⟩ := Option.map_eq_some_iff.mp hp
      exact ⟨q, hq, .inr ⟨on, rfl⟩⟩
    · exact ⟨p, hp, .inl rfl⟩

end RibConfigured

/-- An originated EVPN route stands under its own key. -/
def EvpnKeyed (r : BgpRouter) : Prop :=
  ∀ (k : EvpnRouteKey) (route : EvpnRoute), r.evpn.originated[k]? = some route → route.key = k

structure Configured (r r' : BgpRouter) : Prop where
  sessions : ∀ a, r'.sessionOf a = r.sessionOf a
  nodup : r'.addrs.Nodup
  known : ∀ a ∈ r.addrs, a ∈ r'.addrs
  routerId : r'.routerId = r.routerId
  ipv4 : RibConfigured r.ipv4 r'.ipv4
  ipv6 : RibConfigured r.ipv6 r'.ipv6
  evpn : RibConfigured r.evpn r'.evpn
  evpnAdvertiseRib : r'.evpnAdvertiseRib = r.evpnAdvertiseRib
  keyed : EvpnKeyed r → EvpnKeyed r'

section configured

variable {r r' : BgpRouter} {addr : Ipv4Address} (hn : r.addrs.Nodup)

include hn

theorem Quiet.configured (h : Quiet r r') : Configured r r' where
  sessions _ := BgpRouter.sessionOf_of_sessions h.sessions
  nodup := by rwa [h.addrs]
  known a ha := by rwa [h.addrs]
  routerId := congrArg Settings.routerId h.settings
  ipv4 := h.ipv4 ▸ .refl
  ipv6 := h.ipv6 ▸ .refl
  evpn := h.evpn ▸ .refl
  evpnAdvertiseRib := h.evpnAdvertiseRib
  keyed hk := by rwa [EvpnKeyed, h.evpn]

theorem configured_tables (hpeers : r'.peers = r.peers) (hid : r'.routerId = r.routerId)
    (hadv : r'.evpnAdvertiseRib = r.evpnAdvertiseRib) (h4 : RibConfigured r.ipv4 r'.ipv4)
    (h6 : RibConfigured r.ipv6 r'.ipv6) (he : RibConfigured r.evpn r'.evpn)
    (hk : EvpnKeyed r → EvpnKeyed r') : Configured r r' where
  sessions _ := BgpRouter.sessionOf_of_sessions (by rw [hpeers])
  nodup := by rwa [BgpRouter.addrs, hpeers]
  known a ha := by rwa [BgpRouter.addrs, hpeers]
  routerId := hid
  ipv4 := h4
  ipv6 := h6
  evpn := he
  evpnAdvertiseRib := hadv
  keyed := hk

theorem configured_updateNamed {f : BgpPeer → BgpPeer} (hf : ∀ p, (f p).session = p.session) :
    Configured r (r.updateNamed addr f) := by
  unfold BgpRouter.updateNamed
  split
  · exact (quiet_updatePeer hf).configured hn
  · exact (Quiet.refl r).configured hn

theorem configured_setRouteReflectorClient {on : Bool} :
    Configured r (r.setRouteReflectorClient addr on) := by
  unfold BgpRouter.setRouteReflectorClient
  simp only
  generalize (if on then BgpPeerRole.routeReflectorClient else .normal) = role
  split
  · exact (Quiet.refl r).configured hn
  · rename_i idx _
    split
    · exact (Quiet.refl r).configured hn
    · have hquiet : Quiet r (r.updatePeer idx fun p => { p with role }) :=
        quiet_updatePeer fun _ => rfl
      have hq := hquiet.configured hn
      exact ⟨hq.sessions, hq.nodup, hq.known, rfl, .markFromClient fun _ _ => rfl,
        .markFromClient fun _ _ => rfl, .markFromClient fun _ _ => rfl, rfl, id⟩

/-- A neighbour that is added starts out idle, as every stranger is. -/
theorem configured_newPeer {p : BgpPeer} {peers : List BgpPeer} (hnew : p.addr ∉ r.addrs)
    (hidle : p.session = .idle p.addr) (hperm : peers.Perm (r.peers ++ [p])) :
    Configured r { r with peers } := by
  have haddrs : ({ r with peers } : BgpRouter).addrs.Perm (r.addrs ++ [p.addr]) := by
    simpa [BgpRouter.addrs] using hperm.map BgpPeer.addr
  have hn' : ({ r with peers } : BgpRouter).addrs.Nodup := by
    rw [haddrs.nodup_iff, List.nodup_append]
    exact ⟨hn, by simp, by simpa using fun a ha => ne_of_mem_of_not_mem ha hnew⟩
  refine ⟨?_, hn', fun a ha => haddrs.mem_iff.mpr (by simp [ha]), rfl, .refl, .refl, .refl, rfl, id⟩
  intro a
  rcases BgpRouter.sessionOf_cases hn a with ⟨q, hq, rfl, hs⟩ | ⟨hnot, hs⟩
  · rw [hs, BgpRouter.sessionOf_eq hn' (hperm.mem_iff.mpr (by simp [hq]))]
  · rw [hs]
    by_cases ha : p.addr = a
    · subst ha
      rw [BgpRouter.sessionOf_eq hn' (hperm.mem_iff.mpr (by simp)), hidle]
    · apply BgpRouter.sessionOf_stranger
      rw [haddrs.mem_iff]
      simp [hnot, Ne.symm ha]

theorem configured_addPeer {remoteAs : UInt32} {localAddr : Ipv4Address} {mode : BgpPeerMode} :
    Configured r (r.addPeer addr remoteAs localAddr mode) := by
  unfold BgpRouter.addPeer
  split
  · exact (Quiet.refl r).configured hn
  · rename_i hnew
    refine configured_newPeer hn ?_ rfl (List.perm_insertionSort _ _)
    simpa [BgpRouter.addrs, BgpPeer.new] using hnew

omit hn in
theorem get?_foldl_erase (l : List (Ipv4Address × EvpnRouteKey × EvpnPath)) (t : EvpnAdjRibIn)
    (a : Ipv4Address) (k : EvpnRouteKey) :
    (l.foldl (fun (t : EvpnAdjRibIn) e => t.erase e.2.2.peerAddr e.2.2.key) t).get? a k = none ∨
      (l.foldl (fun (t : EvpnAdjRibIn) e => t.erase e.2.2.peerAddr e.2.2.key) t).get? a k =
        t.get? a k := by
  induction l generalizing t with
  | nil => exact .inr rfl
  | cons e rest ih =>
    rcases ih (t.erase e.2.2.peerAddr e.2.2.key) with h | h
    · exact .inl h
    · rw [List.foldl_cons, h, Nested.get?_erase]
      split
      · exact .inl rfl
      · exact .inr rfl

theorem configured_removeImportRouteTarget {rt : RouteTarget} :
    Configured r (r.removeImportRouteTarget rt) := by
  unfold BgpRouter.removeImportRouteTarget
  split
  · refine configured_tables hn rfl rfl rfl .refl .refl ⟨rfl, rfl, by simp, ?_, ?_⟩ id
    · intro a k
      rcases get?_foldl_erase _ r.evpn.adjRibIn a k with h | h
      · exact .inl h
      · exact .inr (congrArg (Option.map RoutePath.receivedAtMs) h)
    · intro a k p hp
      rcases get?_foldl_erase _ r.evpn.adjRibIn a k with h | h
      · exact absurd (h.symm.trans hp) (by simp)
      · exact ⟨p, h.symm.trans hp, .inl rfl⟩
  · exact (Quiet.refl r).configured hn

omit hn in
theorem keyed_originate {route : EvpnRoute} (h : EvpnKeyed r) :
    EvpnKeyed { r with evpn := r.evpn.originate route.key route } := by
  intro k route' hget
  have hget : (r.evpn.originated.insert route.key route)[k]? = some route' := hget
  rw [Std.TreeMap.getElem?_insert] at hget
  split at hget
  · rename_i hk
    obtain rfl := Option.some.inj hget
    exact Std.LawfulEqOrd.compare_eq_iff_eq.mp hk
  · exact h k route' hget

omit hn in
theorem keyed_withdraw {key : EvpnRouteKey} (h : EvpnKeyed r) :
    EvpnKeyed { r with evpn := r.evpn.withdrawOriginated key } := by
  intro k route' hget
  unfold Rib.withdrawOriginated at hget
  split at hget
  · have hget : (r.evpn.originated.erase key)[k]? = some route' := hget
    rw [Std.TreeMap.getElem?_erase] at hget
    split at hget
    · cases hget
    · exact h k route' hget
  · exact h k route' hget

/-- Every configuration call. -/
theorem configured_apply (c : Config) : Configured r (c.apply r) := by
  have hquiet : ∀ {r'}, Quiet r r' → Configured r r' := fun h => h.configured hn
  cases c with
  | setClusterId id =>
    unfold Config.apply BgpRouter.setClusterId
    simp only
    split
    · exact hquiet (.refl r)
    · exact configured_tables hn rfl rfl rfl .flagged .flagged .flagged fun h => h
  | setRouteReflectorClient addr on => exact configured_setRouteReflectorClient hn
  | setRetainAllRouteTargets on =>
    unfold Config.apply BgpRouter.setRetainAllRouteTargets
    simp only
    split
    · exact hquiet (.refl r)
    · exact configured_tables hn rfl rfl rfl .refl .refl .flagged id
  | markGracefulRestartFamilyRecovered family => exact hquiet World.quiet_markRecovered
  | addPeer addr remoteAs localAddr mode => exact configured_addPeer hn
  | setImportPolicy | setExportPolicy | setNextHopSelf | setMaxPrefixes | setEnforceFirstAs
  | enablePeer => exact configured_updateNamed hn fun _ => rfl
  | originate => exact configured_tables hn rfl rfl rfl .originate .refl .refl id
  | withdrawOriginated => exact configured_tables hn rfl rfl rfl .withdrawOriginated .refl .refl id
  | originateIpv6 => exact configured_tables hn rfl rfl rfl .refl .originate .refl id
  | withdrawOriginatedIpv6 =>
    exact configured_tables hn rfl rfl rfl .refl .withdrawOriginated .refl id
  | addImportRouteTarget rt =>
    unfold Config.apply BgpRouter.addImportRouteTarget
    simp only
    split
    · exact hquiet (.refl r)
    · exact configured_tables hn rfl rfl rfl .refl .refl .flagged id
  | removeImportRouteTarget rt => exact configured_removeImportRouteTarget hn
  | originateEvpn route =>
    unfold Config.apply BgpRouter.originateEvpn
    simp only
    split
    · exact hquiet (.refl r)
    · exact configured_tables hn rfl rfl rfl .refl .refl .originate keyed_originate
  | withdrawEvpn =>
    exact configured_tables hn rfl rfl rfl .refl .refl .withdrawOriginated keyed_withdraw
  | _ => exact hquiet ⟨rfl, rfl, rfl, rfl, rfl, rfl⟩

end configured

/-! ### Invariants of reachable states -/

/-- A property of the speaker, its log and the time that every step keeps whose entries in the log
meet a condition. -/
structure StepInvariant (ok : Call → Prop) (I : BgpRouter → List Call → ℕ → Prop) : Prop where
  start : ∀ localAs routerId, I (.new localAs routerId) [] 0
  later : ∀ {r log t t'}, I r log t → t ≤ t' → I r log t'
  step : ∀ {r cs r' log t}, r.addrs.Nodup → Step t r cs r' → (∀ c ∈ cs, ok c) → I r log t →
    I r' (cs ++ log) t
  configure : ∀ {r r' log t}, Configured r r' → I r log t → I r' log t

section invariant

variable {σ : Type} {io : SocketRuntime σ} {w w' : World σ} {t nowMs : ℕ} {ok : Call → Prop}
  {I : BgpRouter → List Call → ℕ → Prop}

theorem ReachableBy.nodup {allowed : BgpRouter → Config → Prop} (h : ReachableBy allowed io w t) :
    w.router.addrs.Nodup := by
  have hkeep : ∀ {w w' : World σ} {nowMs}, w.router.addrs.Nodup → Reaches nowMs w w' →
      w'.router.addrs.Nodup := fun hn hr => by rwa [hr.addrs]
  induction h with
  | start => exact List.nodup_nil
  | network _ _ ih => exact ih
  | configure c _ _ ih => exact (configured_apply ih c).nodup
  | poll _ _ ih => exact hkeep ih World.poll_reaches
  | @shutdownPeer w t nowMs addr _ _ ih =>
    have hr : Reaches nowMs w (w.shutdownPeer io addr nowMs) := World.shutdownPeer_reaches
    exact hkeep ih hr
  | @requestRouteRefresh w t addr family _ ih =>
    have hr : Reaches t w (w.requestRouteRefresh io addr family) :=
      World.requestRouteRefresh_reaches
    exact hkeep ih hr
  | beginGracefulRestart _ _ ih => exact hkeep ih World.beginGracefulRestart_reaches

theorem Reaches.invariant (hI : StepInvariant ok I) (hn : w.router.addrs.Nodup)
    (h : Reaches nowMs w w') (hok : ∀ c ∈ w'.calls, ok c) (hw : I w.router w.calls nowMs) :
    I w'.router w'.calls nowMs := by
  obtain ⟨cs, hrun, hcalls⟩ := h
  rw [hcalls] at hok ⊢
  have hboth := hrun.invariant (I := fun r log => r.addrs.Nodup ∧ I r log nowMs)
    (fun hs hcs hr => ⟨by rw [hs.addrs]; exact hr.1, hI.step hr.1 hs hcs hr.2⟩)
    (fun c hc => hok c (List.mem_append_left _ hc)) ⟨hn, hw⟩
  exact hboth.2

theorem Reaches.calls_subset (h : Reaches nowMs w w') : ∀ c ∈ w.calls, c ∈ w'.calls := by
  obtain ⟨cs, -, hcalls⟩ := h
  intro c hc
  rw [hcalls]
  exact List.mem_append_right _ hc

/-- The induction over reachable states. -/
theorem Reachable.invariant (hI : StepInvariant ok I) (h : Reachable io w t)
    (hok : ∀ c ∈ w.calls, ok c) : I w.router w.calls t := by
  have hrun : ∀ {w w' : World σ} {t nowMs}, Reachable io w t → t ≤ nowMs → Reaches nowMs w w' →
      (∀ c ∈ w'.calls, ok c) → ((∀ c ∈ w.calls, ok c) → I w.router w.calls t) →
      I w'.router w'.calls nowMs := by
    intro w w' t nowMs hw ht hr hok ih
    have hbefore := ih fun c hc => hok c (hr.calls_subset c hc)
    exact hr.invariant hI hw.nodup hok (hI.later hbefore ht)
  induction h with
  | start localAs routerId => exact hI.start localAs routerId
  | network _ _ ih => exact ih hok
  | configure c _ hw ih => exact hI.configure (configured_apply hw.nodup c) (ih hok)
  | poll hw ht ih => exact hrun hw ht World.poll_reaches hok ih
  | shutdownPeer addr hw ht ih => exact hrun hw ht World.shutdownPeer_reaches hok ih
  | requestRouteRefresh addr family hw ih =>
    exact hrun hw le_rfl World.requestRouteRefresh_reaches hok ih
  | beginGracefulRestart hw ht ih => exact hrun hw ht World.beginGracefulRestart_reaches hok ih

end invariant

/-! ### Concrete runs -/

/-- One thing that happens to the speaker from outside. -/
inductive Move (σ : Type) where
  | network (s : σ)
  | configure (c : Config)
  | poll (nowMs : ℕ)

/-- Plays moves; the clock does not run backwards. -/
def World.play {σ : Type} (io : SocketRuntime σ) : List (Move σ) → World σ × ℕ → World σ × ℕ
  | [], at_ => at_
  | .network s :: rest, (w, t) => play io rest ({ w with sockets := s }, t)
  | .configure c :: rest, (w, t) => play io rest (w.withRouter c.apply, t)
  | .poll nowMs :: rest, (w, t) => play io rest (w.poll io (max t nowMs), max t nowMs)

theorem ReachableBy.play {ok : BgpRouter → Config → Prop} {σ : Type} {io : SocketRuntime σ}
    {w : World σ} {t : ℕ} (h : ReachableBy ok io w t) (moves : List (Move σ))
    (hok : ∀ c, .configure c ∈ moves → ∀ r, ok r c) :
    ReachableBy ok io (World.play io moves (w, t)).1 (World.play io moves (w, t)).2 := by
  induction moves generalizing w t with
  | nil => exact h
  | cons m rest ih =>
    have hrest : ∀ c, .configure c ∈ rest → ∀ r, ok r c :=
      fun c hc => hok c (List.mem_cons_of_mem _ hc)
    cases m with
    | network s => exact ih (h.network s) hrest
    | configure c => exact ih (h.configure c (hok c List.mem_cons_self _)) hrest
    | poll nowMs => exact ih (h.poll (le_max_left t nowMs)) hrest

theorem Reachable.play {σ : Type} {io : SocketRuntime σ} {w : World σ} {t : ℕ}
    (h : Reachable io w t) (moves : List (Move σ)) :
    Reachable io (World.play io moves (w, t)).1 (World.play io moves (w, t)).2 :=
  ReachableBy.play h moves fun _ _ _ => trivial

/-- Sockets that answer from a script: the connections to accept, the bytes to read from each
stream, the streams that are dead, and the room in the send buffers. -/
structure Script where
  accepts : List (ℕ × Ipv4Address) := []
  inbox : List (ℕ × List UInt8) := []
  dead : List ℕ := []
  room : ℕ := 65535

def scripted : SocketRuntime Script where
  tcpListenAny s _ := (some 1, s)
  tcpAccept s _ :=
    match s.accepts with
    | [] => (none, s)
    | c :: rest => (some c, { s with accepts := rest })
  backlog s _ := s.accepts.length
  tcpConnectFrom s _ _ _ := (some 2, s)
  tcpIsLive s stream := !s.dead.contains stream
  tcpEstablished _ _ := true
  tcpRead s stream :=
    match s.inbox.find? fun e => e.1 = stream with
    | none => (.wouldBlock, s)
    | some e => (.data e.2, { s with inbox := s.inbox.erase e })
  tcpReadable s _ := s.inbox.length
  tcpWritable s _ := s.room
  tcpWrite s _ bytes := (some bytes.length, s)
  tcpAbort s _ _ := s

/-- The OPEN and the KEEPALIVE of a peer that offers the speaker's own capabilities. -/
def handshake (peerAs : UInt32) (id : Ipv4Address) (caps : BgpCapabilitySet) : List UInt8 :=
  (BgpPdu.open (.withCapabilities peerAs 90 id caps)).serialize ++ BgpPdu.keepalive.serialize

end ToyTcpip.Bgp
