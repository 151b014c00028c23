import ToyTcpip.Bgp.Export

/-! Where the three address families export by the same rules, and where they part. -/
namespace ToyTcpip.Bgp

/-- The attributes all three families send. -/
structure SharedAttributes where
  origin : BgpOrigin
  asPath : AsPath
  localPref : Option UInt32
  originatorId : Option Ipv4Address
  clusterList : List Ipv4Address
  deriving DecidableEq, Repr

def AdvertisedRoute.shared (a : AdvertisedRoute) : SharedAttributes :=
  ⟨a.origin, a.asPath, a.localPref, a.originatorId, a.clusterList⟩

def Ipv6AdvertisedRoute.shared (a : Ipv6AdvertisedRoute) : SharedAttributes :=
  ⟨a.origin, a.asPath, a.localPref, a.originatorId, a.clusterList⟩

def EvpnAdvertisedRoute.shared (a : EvpnAdvertisedRoute) : SharedAttributes :=
  ⟨a.origin, a.asPath, a.localPref, a.originatorId, a.clusterList⟩

/-- Best paths of the three families that say the same, as far as each can say it. -/
structure Corresponding (localAs : UInt32) (p4 : BgpPath) (p6 : Ipv6Path) (pe : EvpnPath) :
    Prop where
  source : p6.source = p4.source
  isLocal : pe.isLocal = p4.isLocal
  learned : p4.isLocal = false → (pe.peerAs = localAs ↔ p4.source = .ibgp)
  peerAddr : p6.peerAddr = p4.peerAddr ∧ pe.peerAddr = p4.peerAddr
  peerRouterId : p6.peerRouterId = p4.peerRouterId ∧ pe.peerRouterId = p4.peerRouterId
  origin : p6.origin = p4.origin ∧ pe.origin = p4.origin
  asPath : p6.asPath = p4.asPath ∧ pe.asPath = p4.asPath
  med : p6.med = p4.med
  localPref : p6.localPref = p4.localPref ∧ pe.localPref = p4.localPref
  originatorId : p6.originatorId = p4.originatorId ∧ pe.originatorId = p4.originatorId
  clusterList : p6.clusterList = p4.clusterList ∧ pe.clusterList = p4.clusterList
  fromClient : p6.fromClient = p4.fromClient ∧ pe.fromClient = p4.fromClient

namespace BgpRouter

variable (r : BgpRouter) (idx : ℕ)

/-- How a path goes out to a peer, by where it came from. -/
def propagationOf (p : BgpPath) : Propagation :=
  r.propagation idx (p.source = .ibgp) p.fromClient

/-- The path did not come from this peer, may be told to it, and does not run through its AS. -/
def Sendable (p : BgpPath) : Prop :=
  ¬ (p.isLocal = false ∧ p.peerAddr = (r.peerAt idx).addr) ∧ r.propagationOf idx p ≠ .deny ∧
    (r.exportedAsPath idx p.asPath).contains (r.peerAt idx).remoteAs = false

instance (p : BgpPath) : Decidable (r.Sendable idx p) := by
  unfold Sendable
  infer_instance

/-- What all three families send of a path. -/
def sharedView (p : BgpPath) : SharedAttributes :=
  let meta' := r.metadataFor (r.propagationOf idx p) p.originatorId p.clusterList p.peerRouterId
  { origin := p.origin, asPath := r.exportedAsPath idx p.asPath,
    localPref := if r.isEbgp idx then none else some p.localPref,
    originatorId := meta'.1, clusterList := meta'.2 }

variable {r idx} {p4 : BgpPath} {p6 : Ipv6Path} {pe : EvpnPath}

/-- The checks a path passes before it is sent, as the code makes them one after the other. -/
theorem ite_sendable {α : Type} {own contained : Prop} [Decidable own] [Decidable contained]
    {propagation : Propagation} {a : α}
    (hown : own ↔ p4.isLocal = false ∧ p4.peerAddr = (r.peerAt idx).addr)
    (hprop : propagation = r.propagationOf idx p4)
    (hcontained : contained ↔
      (r.exportedAsPath idx p4.asPath).contains (r.peerAt idx).remoteAs = true) :
    (if own then none else if propagation = .deny then none else if contained then none
      else some a) = if r.Sendable idx p4 then some a else none := by
  unfold Sendable
  simp only [hown, hprop, hcontained, ← Bool.not_eq_true]
  split_ifs <;> simp_all

theorem exportIpv6_eq (h : Corresponding r.localAs p4 p6 pe) :
    r.exportIpv6 idx p6 = if r.Sendable idx p4 then
      some { origin := (r.sharedView idx p4).origin
             asPath := (r.sharedView idx p4).asPath
             nextHop :=
               if r.isEbgp idx || (r.peerAt idx).nextHopSelf then r.ipv6NextHop.getD p6.nextHop
               else p6.nextHop
             med := p4.med
             localPref := (r.sharedView idx p4).localPref
             originatorId := (r.sharedView idx p4).originatorId
             clusterList := (r.sharedView idx p4).clusterList }
    else none := by
  have hlocal : p6.isLocal = p4.isLocal := by rw [Ipv6Path.isLocal, BgpPath.isLocal, h.source]
  have hprop : r.propagation idx (!p6.isLocal && p6.source = .ibgp) p6.fromClient =
      r.propagationOf idx p4 := by
    rw [propagationOf, h.fromClient.1, h.source, hlocal, BgpPath.isLocal]
    cases p4.source <;> rfl
  unfold exportIpv6
  refine (@ite_sendable r idx p4 _ _ _ _ _ _ _ ?_ hprop ?_).trans ?_
  · simp [hlocal, h.peerAddr.1]
  · rw [h.asPath.1]
  · simp only [hprop, sharedView, h.origin.1, h.asPath.1, h.med, h.localPref.1, h.originatorId.1,
      h.clusterList.1, h.peerRouterId.1]

theorem exportEvpn_eq (h : Corresponding r.localAs p4 p6 pe) :
    r.exportEvpn idx pe = if r.Sendable idx p4 then
      some { route := pe.route
             origin := (r.sharedView idx p4).origin
             asPath := (r.sharedView idx p4).asPath
             localPref := (r.sharedView idx p4).localPref
             originatorId := (r.sharedView idx p4).originatorId
             clusterList := (r.sharedView idx p4).clusterList }
    else none := by
  have hprop : r.propagation idx (!pe.isLocal && pe.peerAs = r.localAs) pe.fromClient =
      r.propagationOf idx p4 := by
    rw [propagationOf, h.fromClient.2, h.isLocal]
    cases hlocal : p4.isLocal with
    | true =>
      have hsource : p4.source = .local := of_decide_eq_true hlocal
      simp [hsource]
    | false => simp [h.learned hlocal]
  unfold exportEvpn
  refine (@ite_sendable r idx p4 _ _ _ _ _ _ _ ?_ hprop ?_).trans ?_
  · simp [h.isLocal, h.peerAddr.2]
  · rw [h.asPath.2]
  · simp only [hprop, sharedView, h.origin.2, h.asPath.2, h.localPref.2, h.originatorId.2,
      h.clusterList.2, h.peerRouterId.2]

/-- The IPv4 view keeps a path from a peer of its own address even where the path is local. -/
theorem exportIpv4_eq {pfx : Ipv4Prefix}
    (hpolicy : (r.peerAt idx).exportPolicy.apply pfx = .permitted none none) :
    r.exportIpv4 idx pfx p4 =
      if r.Sendable idx p4 ∧ p4.peerAddr ≠ (r.peerAt idx).addr then
        some { origin := (r.sharedView idx p4).origin
               asPath := (r.sharedView idx p4).asPath
               nextHop :=
                 if r.isEbgp idx || p4.isLocal ||
                   ((r.peerAt idx).nextHopSelf && !decide (r.propagationOf idx p4 = .reflect)) then
                   (r.peerAt idx).localAddr
                 else p4.nextHop
               med := if r.isEbgp idx then none else p4.med
               localPref := (r.sharedView idx p4).localPref
               originatorId := (r.sharedView idx p4).originatorId
               clusterList := (r.sharedView idx p4).clusterList }
      else none := by
  unfold exportIpv4 Sendable
  simp only [hpolicy]
  by_cases hown : p4.peerAddr = (r.peerAt idx).addr
  · simp [hown]
  · by_cases hdeny : r.propagation idx (p4.source = .ibgp) p4.fromClient = .deny
    · simp [hown, hdeny, propagationOf]
    · by_cases hloop : (r.exportedAsPath idx p4.asPath).contains (r.peerAt idx).remoteAs = true
      · simp [hown, hdeny, hloop, propagationOf]
      · by_cases hreflect : r.propagation idx (p4.source = .ibgp) p4.fromClient = .reflect
        · simp [hown, hreflect, hloop, propagationOf, sharedView]
        · simp [hown, hdeny, hreflect, hloop, propagationOf, sharedView]

/-! ### The same rules -/

/-- The families agree on whether a path is sent, with which attributes, on MED towards external
peers, and leave the next hop of a reflected path alone. -/
structure SameRules (r : BgpRouter) (idx : ℕ) (p4 : BgpPath) (p6 : Ipv6Path) (pe : EvpnPath)
    (out4 : Option AdvertisedRoute) (out6 : Option Ipv6AdvertisedRoute)
    (oute : Option EvpnAdvertisedRoute) : Prop where
  ipv4 : out4.map AdvertisedRoute.shared = out6.map Ipv6AdvertisedRoute.shared
  evpn : oute.map EvpnAdvertisedRoute.shared = out6.map Ipv6AdvertisedRoute.shared
  med : r.isEbgp idx = true → ∀ a ∈ out4, ∀ b ∈ out6, a.med = b.med
  nextHop : r.propagationOf idx p4 = .reflect → (∀ a ∈ out4, a.nextHop = p4.nextHop) ∧
    (∀ b ∈ out6, b.nextHop = p6.nextHop) ∧ ∀ c ∈ oute, c.route.nextHop = pe.route.nextHop

/-- The peer does not have the address a local path goes under, a path to an external peer has no
MED, and next-hop-self would not change the IPv6 next hop of a reflected path. -/
structure Agreeing (r : BgpRouter) (idx : ℕ) (p4 : BgpPath) (p6 : Ipv6Path) : Prop where
  own : p4.peerAddr ≠ (r.peerAt idx).addr
  med : r.isEbgp idx = true → p4.med = none
  nextHop : r.propagationOf idx p4 = .reflect → (r.peerAt idx).nextHopSelf = true →
    r.ipv6NextHop.getD p6.nextHop = p6.nextHop

theorem of_reflect (h : r.propagationOf idx p4 = .reflect) :
    r.isEbgp idx = false ∧ p4.isLocal = false := by
  unfold propagationOf propagation at h
  split_ifs at h with hplain
  simp only [Bool.or_eq_true, Bool.not_eq_true', decide_eq_false_iff_not, not_or, not_not,
    Bool.not_eq_true] at hplain
  refine ⟨hplain.1, ?_⟩
  rw [BgpPath.isLocal, hplain.2]
  rfl

theorem sameRules_iff (h : Corresponding r.localAs p4 p6 pe) {pfx : Ipv4Prefix}
    (hpolicy : (r.peerAt idx).exportPolicy.apply pfx = .permitted none none) :
    r.SameRules idx p4 p6 pe (r.exportIpv4 idx pfx p4) (r.exportIpv6 idx p6) (r.exportEvpn idx pe) ↔
      (r.Sendable idx p4 → r.Agreeing idx p4 p6) := by
  rw [exportIpv4_eq hpolicy, exportIpv6_eq h, exportEvpn_eq h]
  by_cases hsend : r.Sendable idx p4
  swap
  · refine iff_of_true ⟨?_, ?_, ?_, ?_⟩ fun hs => absurd hs hsend <;> simp [hsend]
  simp only [hsend, true_and, if_true, forall_const]
  by_cases hown : p4.peerAddr = (r.peerAt idx).addr
  · refine iff_of_false (fun hsame => ?_) fun hagree => hagree.own hown
    simpa [hown] using hsame.ipv4
  rw [if_pos hown]
  constructor
  · intro hsame
    refine ⟨hown, fun hebgp => ?_, fun hreflect hself => ?_⟩
    · have hmed := hsame.med hebgp _ rfl _ rfl
      simpa [hebgp, eq_comm] using hmed
    · have hhop := (hsame.nextHop hreflect).2.1 _ rfl
      simpa [hself] using hhop
  · intro hagree
    refine ⟨rfl, rfl, fun hebgp a ha b hb => ?_, fun hreflect => ?_⟩
    · cases ha
      cases hb
      simp [hebgp, hagree.med hebgp]
    · obtain ⟨hibgp, hlocal⟩ := of_reflect hreflect
      refine ⟨fun a ha => ?_, fun b hb => ?_, fun c hc => ?_⟩
      · cases ha
        simp [hibgp, hlocal, hreflect]
      · cases hb
        by_cases hself : (r.peerAt idx).nextHopSelf = true
        · simpa [hibgp, hself] using hagree.nextHop hreflect hself
        · simp [hibgp, hself]
      · cases hc
        rfl

/-- What three best paths that say the same are exported as. -/
theorem families_export_alike (h : Corresponding r.localAs p4 p6 pe)
    (hpolicy : ∀ pfx, (r.peerAt idx).exportPolicy.apply pfx = .permitted none none)
    {pfx : Ipv4Prefix} {pfx6 : Ipv6Prefix} {key : EvpnRouteKey}
    (h4 : r.ipv4.locRib[pfx]? = some p4) (h6 : r.ipv6.locRib[pfx6]? = some p6)
    (he : r.evpnAdvertiseRib[key]? = some pe) :
    r.SameRules idx p4 p6 pe (r.computeAdjRibOut idx)[pfx]? (r.computeIpv6AdjRibOut idx)[pfx6]?
        (r.computeEvpnAdjRibOut idx)[key]? ↔
      (r.Sendable idx p4 → r.Agreeing idx p4 p6) := by
  simp only [computeAdjRibOut, computeIpv6AdjRibOut, computeEvpnAdjRibOut,
    Std.TreeMap.getElem?_filterMap', h4, h6, he, Option.bind_some]
  exact sameRules_iff h (hpolicy pfx)

/-! ### A route with a MED, and a reflected one -/

def internalPath (med : Option UInt32) : BgpPath :=
  { pfx := .new ⟨192, 0, 2, 0⟩ 24, source := .ibgp, peerAddr := ⟨10, 0, 0, 4⟩, peerAs := 65000,
    peerRouterId := ⟨10, 0, 0, 4⟩, origin := .igp, asPath := .sequence [65001],
    nextHop := ⟨10, 0, 0, 4⟩, med, localPref := 100, atomicAggregate := false,
    originatorId := none, clusterList := [], fromClient := false, receivedAtMs := 0 }

def internalIpv6Path (med : Option UInt32) : Ipv6Path :=
  { pfx := .new .unspecified 0, source := .ibgp, peerAddr := ⟨10, 0, 0, 4⟩, peerAs := 65000,
    peerRouterId := ⟨10, 0, 0, 4⟩, origin := .igp, asPath := .sequence [65001],
    nextHop := .unspecified, med, localPref := 100, atomicAggregate := false,
    originatorId := none, clusterList := [], fromClient := false, receivedAtMs := 0 }

def internalEvpnPath : EvpnPath :=
  { route := ⟨.inclusiveMulticast ⟨⟨1, 5001⟩, 5001, ⟨10, 0, 0, 4⟩⟩, ⟨10, 0, 0, 4⟩, [], none, []⟩
    peerAddr := ⟨10, 0, 0, 4⟩, peerAs := 65000, peerRouterId := ⟨10, 0, 0, 4⟩, origin := .igp,
    asPath := .sequence [65001], localPref := 100, originatorId := none, clusterList := [],
    fromClient := false, importable := true, receivedAtMs := 0, isLocal := false }

theorem internal_corresponding (med : Option UInt32) :
    Corresponding 65000 (internalPath med) (internalIpv6Path med) internalEvpnPath := by
  constructor <;> simp [internalPath, internalIpv6Path, internalEvpnPath, BgpPath.isLocal]

/-- A speaker of AS 65000 with an external neighbour and a client with next-hop-self. -/
def paritySpeaker (med : Option UInt32) : BgpRouter :=
  { BgpRouter.new 65000 ⟨10, 0, 0, 1⟩ with
    peers := [.new ⟨10, 0, 0, 2⟩ 65002 ⟨10, 0, 0, 1⟩ .active,
      { BgpPeer.new ⟨10, 0, 0, 3⟩ 65000 ⟨10, 0, 0, 1⟩ .active with
        role := .routeReflectorClient, nextHopSelf := true }]
    ipv6NextHop := some .loopback
    ipv4 := { locRib := (∅ : LocRib).insert (.new ⟨192, 0, 2, 0⟩ 24) (internalPath med) }
    ipv6 := { locRib := (∅ : Ipv6LocRib).insert (.new .unspecified 0) (internalIpv6Path med) }
    evpnAdvertiseRib := (∅ : EvpnLocRib).insert internalEvpnPath.key internalEvpnPath }

theorem families_export_alike_no_med :
    (paritySpeaker none).SameRules 0 (internalPath none) (internalIpv6Path none) internalEvpnPath
      ((paritySpeaker none).computeAdjRibOut 0)[Ipv4Prefix.new ⟨192, 0, 2, 0⟩ 24]?
      ((paritySpeaker none).computeIpv6AdjRibOut 0)[Ipv6Prefix.new .unspecified 0]?
      ((paritySpeaker none).computeEvpnAdjRibOut 0)[internalEvpnPath.key]? := by
  refine (families_export_alike (internal_corresponding none) (fun _ => rfl) ?_ ?_ ?_).mpr
    fun _ => ⟨?_, ?_, ?_⟩
  all_goals decide +kernel

/-- To the external neighbour the MED of the route goes along in IPv6 only, and to the client the
reflected IPv6 route goes with another next hop. -/
theorem ipv6_sends_med_and_next_hop :
    ¬ (paritySpeaker (some 50)).SameRules 0 (internalPath (some 50)) (internalIpv6Path (some 50))
      internalEvpnPath
      ((paritySpeaker (some 50)).computeAdjRibOut 0)[Ipv4Prefix.new ⟨192, 0, 2, 0⟩ 24]?
      ((paritySpeaker (some 50)).computeIpv6AdjRibOut 0)[Ipv6Prefix.new .unspecified 0]?
      ((paritySpeaker (some 50)).computeEvpnAdjRibOut 0)[internalEvpnPath.key]? ∧
    ¬ (paritySpeaker none).SameRules 1 (internalPath none) (internalIpv6Path none) internalEvpnPath
      ((paritySpeaker none).computeAdjRibOut 1)[Ipv4Prefix.new ⟨192, 0, 2, 0⟩ 24]?
      ((paritySpeaker none).computeIpv6AdjRibOut 1)[Ipv6Prefix.new .unspecified 0]?
      ((paritySpeaker none).computeEvpnAdjRibOut 1)[internalEvpnPath.key]? := by
  constructor
  · intro h
    exact absurd (h.med (by decide +kernel)) (by decide +kernel)
  · intro h
    exact absurd (h.nextHop (by decide +kernel)).2.1 (by decide +kernel)

end BgpRouter

end ToyTcpip.Bgp
