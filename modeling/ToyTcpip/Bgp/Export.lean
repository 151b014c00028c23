import ToyTcpip.Bgp.Import

/-! The decision processes of `bgp_router.rs` and what they make the speaker send. -/
namespace ToyTcpip.Bgp

/-! ### Decision processes -/

namespace Rib

variable {κ π ρ ο : Type} [Ord κ] [RoutePath π κ]

/-- The paths that compete under a key: the fresh ones if there are any, else all, then the route
this speaker originates. -/
def contenders (rib : Rib κ π ρ ο) (stale : π → Bool) (mkLocal : κ → ο → π) (k : κ) : List π :=
  let learned := rib.adjRibIn.candidates k
  let fresh := learned.filter fun p => !stale p
  (if fresh.isEmpty then learned else fresh) ++ (rib.originated[k]?.map (mkLocal k)).toList

def decisionKeys (rib : Rib κ π ρ ο) : List κ :=
  (rib.adjRibIn.keys.insertMany rib.originated.keys).toList

/-- The winner of each key. -/
def winners (keys : List κ) (best : κ → Option π) : Std.TreeMap κ π :=
  keys.foldl (fun m k =>
    match best k with
    | some p => m.insert (RoutePath.key p) p
    | none => m) ∅

end Rib

namespace BgpRouter

variable (r : BgpRouter)

def decision : LocRib :=
  Rib.winners r.ipv4.decisionKeys fun k => selectBest (r.ipv4.contenders
    (fun p => r.routeIsGracefulRestartStale p.peerAddr .ipv4Unicast p.receivedAtMs)
    (fun pfx nextHop => .local pfx nextHop r.routerId) k)

def runDecisionProcess : BgpRouter := { r with ipv4 := { r.ipv4 with locRib := r.decision } }

def ipv6Decision : Ipv6LocRib :=
  Rib.winners r.ipv6.decisionKeys fun k => selectBestIpv6 (r.ipv6.contenders
    (fun p => r.routeIsGracefulRestartStale p.peerAddr .ipv6Unicast p.receivedAtMs)
    (fun pfx nextHop => .local pfx nextHop r.routerId) k)

def runIpv6DecisionProcess : BgpRouter :=
  { r with ipv6 := { r.ipv6 with locRib := r.ipv6Decision } }

def evpnContenders (nowMs : ℕ) (k : EvpnRouteKey) : List EvpnPath :=
  r.evpn.contenders
    (fun p => r.routeIsGracefulRestartStale p.peerAddr .l2vpnEvpn p.receivedAtMs)
    (fun _ route => .local route r.routerId nowMs) k

/-- The best path among everything received. -/
def evpnAdvertiseDecision (nowMs : ℕ) : EvpnLocRib :=
  Rib.winners r.evpn.decisionKeys fun k => selectBestEvpn (r.evpnContenders nowMs k)

/-- The best path among what this speaker imports. -/
def evpnDecision (nowMs : ℕ) : EvpnLocRib :=
  Rib.winners r.evpn.decisionKeys fun k =>
    selectBestEvpn ((r.evpnContenders nowMs k).filter fun p => p.isLocal || p.importable)

def runEvpnDecisionProcess (nowMs : ℕ) : BgpRouter :=
  { r with
    evpn := { r.evpn with locRib := r.evpnDecision nowMs }
    evpnAdvertiseRib := r.evpnAdvertiseDecision nowMs }

/-- The part of `poll` that brings the Loc-RIBs up to date. -/
def decideWhereDirty (nowMs : ℕ) : BgpRouter :=
  let r := if r.ipv4.dirty then
      let r := r.runDecisionProcess
      { r with ipv4 := { r.ipv4 with dirty := false } }
    else r
  let r := if r.ipv6.dirty then
      let r := r.runIpv6DecisionProcess
      { r with ipv6 := { r.ipv6 with dirty := false } }
    else r
  if r.evpn.dirty then
    let r := r.runEvpnDecisionProcess nowMs
    { r with evpn := { r.evpn with dirty := false } }
  else r

/-! ### The outbound view -/

inductive Propagation where
  | deny
  | plain
  | reflect
  deriving DecidableEq, Repr

/-- Whether a path may be sent to a peer, and whether doing so is route reflection. -/
def propagation (idx : ℕ) (learnedOverIbgp fromClient : Bool) : Propagation :=
  if r.isEbgp idx || !learnedOverIbgp then .plain
  else if fromClient || (r.peerAt idx).isClient then .reflect
  else .deny

/-- ORIGINATOR_ID and CLUSTER_LIST of a reflected advertisement. -/
def reflectionMetadata (receivedOriginator : Option Ipv4Address)
    (receivedClusters : List Ipv4Address) (advertisingRouterId : Ipv4Address) :
    Option Ipv4Address × List Ipv4Address :=
  (some (receivedOriginator.getD advertisingRouterId),
    (r.clusterId :: receivedClusters).take maxClusterListLen)

def metadataFor (propagation : Propagation) (originatorId : Option Ipv4Address)
    (clusterList : List Ipv4Address) (peerRouterId : Ipv4Address) :
    Option Ipv4Address × List Ipv4Address :=
  if propagation = .reflect then r.reflectionMetadata originatorId clusterList peerRouterId
  else (none, [])

/-- The AS path as sent: with this AS in front of it to an external peer. -/
def exportedAsPath (idx : ℕ) (path : AsPath) : AsPath :=
  if r.isEbgp idx then path.prepend r.localAs else path

def exportIpv4 (idx : ℕ) (pfx : Ipv4Prefix) (best : BgpPath) : Option AdvertisedRoute :=
  let peer := r.peerAt idx
  if best.peerAddr = peer.addr then none
  else
    let propagation := r.propagation idx (best.source = .ibgp) best.fromClient
    if propagation = .deny then none
    else
      match peer.exportPolicy.apply pfx with
      | .denied => none
      | .permitted policyLp policyMed =>
        let asPath := r.exportedAsPath idx best.asPath
        if asPath.contains peer.remoteAs then none
        else
          let reflecting := propagation = .reflect
          let meta' := r.metadataFor propagation best.originatorId best.clusterList
            best.peerRouterId
          some
            { origin := best.origin
              asPath
              nextHop :=
                if r.isEbgp idx || best.isLocal || (peer.nextHopSelf && !decide reflecting) then
                  peer.localAddr
                else best.nextHop
              med := if r.isEbgp idx then policyMed else policyMed <|> best.med
              localPref := if r.isEbgp idx then none else some (policyLp.getD best.localPref)
              originatorId := meta'.1
              clusterList := meta'.2 }

def exportIpv6 (idx : ℕ) (best : Ipv6Path) : Option Ipv6AdvertisedRoute :=
  let peer := r.peerAt idx
  if !best.isLocal ∧ best.peerAddr = peer.addr then none
  else
    let propagation := r.propagation idx (!best.isLocal && best.source = .ibgp) best.fromClient
    if propagation = .deny then none
    else
      let asPath := r.exportedAsPath idx best.asPath
      if asPath.contains peer.remoteAs then none
      else
        let meta' := r.metadataFor propagation best.originatorId best.clusterList best.peerRouterId
        some
          { origin := best.origin
            asPath
            nextHop :=
              if r.isEbgp idx || peer.nextHopSelf then r.ipv6NextHop.getD best.nextHop
              else best.nextHop
            med := best.med
            localPref := if r.isEbgp idx then none else some best.localPref
            originatorId := meta'.1
            clusterList := meta'.2 }

/-- The next hop names the VTEP that owns the MAC and is not rewritten. -/
def exportEvpn (idx : ℕ) (best : EvpnPath) : Option EvpnAdvertisedRoute :=
  let peer := r.peerAt idx
  if !best.isLocal ∧ best.peerAddr = peer.addr then none
  else
    let propagation := r.propagation idx (!best.isLocal && best.peerAs = r.localAs) best.fromClient
    if propagation = .deny then none
    else
      let asPath := r.exportedAsPath idx best.asPath
      if asPath.contains peer.remoteAs then none
      else
        let meta' := r.metadataFor propagation best.originatorId best.clusterList best.peerRouterId
        some
          { route := best.route
            origin := best.origin
            asPath
            localPref := if r.isEbgp idx then none else some best.localPref
            originatorId := meta'.1
            clusterList := meta'.2 }

def computeAdjRibOut (idx : ℕ) : Std.TreeMap Ipv4Prefix AdvertisedRoute :=
  r.ipv4.locRib.filterMap (r.exportIpv4 idx)

def computeIpv6AdjRibOut (idx : ℕ) : Std.TreeMap Ipv6Prefix Ipv6AdvertisedRoute :=
  r.ipv6.locRib.filterMap fun _ => r.exportIpv6 idx

def computeEvpnAdjRibOut (idx : ℕ) : Std.TreeMap EvpnRouteKey EvpnAdvertisedRoute :=
  r.evpnAdvertiseRib.filterMap fun _ => r.exportEvpn idx

end BgpRouter

/-! ### Messages -/

def attributesFor (route : AdvertisedRoute) (fourOctetAs : Bool) : BgpPathAttributes :=
  { origin := route.origin, asPath := route.asPath, nextHop := route.nextHop, med := route.med,
    localPref := route.localPref, atomicAggregate := false, extCommunities := [], mpReach := none,
    mpUnreach := none, originatorId := route.originatorId, clusterList := route.clusterList,
    fourOctetAs }

def ipv6AttributesFor (route : Ipv6AdvertisedRoute) (fourOctetAs : Bool) (nlri : List UInt8) :
    BgpPathAttributes :=
  { BgpPathAttributes.new route.origin route.asPath .unspecified with
    fourOctetAs
    med := route.med
    localPref := route.localPref
    originatorId := route.originatorId
    clusterList := route.clusterList
    mpReach := some ⟨2, 1, route.nextHop.octets, nlri⟩ }

/-- Without the multiprotocol attribute, which is filled in once the group is known. -/
def evpnAttributesFor (advert : EvpnAdvertisedRoute) (fourOctetAs : Bool) : BgpPathAttributes :=
  { BgpPathAttributes.new advert.origin advert.asPath .unspecified with
    fourOctetAs
    extCommunities := advert.route.extCommunities
    localPref := advert.localPref
    originatorId := advert.originatorId
    clusterList := advert.clusterList }

/-- How one address family is sent to a peer. -/
structure Plane (κ π ρ ο : Type) [Ord κ] where
  family : AfiSafi
  rib : BgpRouter → Rib κ π ρ ο
  setRib : BgpRouter → Rib κ π ρ ο → BgpRouter
  /-- The peer takes routes of this family. -/
  eligible : BgpPeer → Bool
  desired : BgpRouter → ℕ → Std.TreeMap κ ρ
  /-- What the announcements of one message have in common. -/
  groupKey : Bool → ρ → List UInt8
  withdrawal : List (κ × ρ) → BgpUpdateMessage
  announcement : Bool → ρ → List (κ × ρ) → BgpUpdateMessage
  /-- What the Adj-RIB-Out records for a member of a group, from the group's route and its own. -/
  recorded : ρ → ρ → ρ

def ipv4Plane : Plane Ipv4Prefix BgpPath AdvertisedRoute Ipv4Address where
  family := .ipv4Unicast
  rib := BgpRouter.ipv4
  setRib r rib := { r with ipv4 := rib }
  eligible := BgpPeer.isEstablished
  desired := BgpRouter.computeAdjRibOut
  groupKey fourOctet route := (attributesFor route fourOctet).encodeFor true
  withdrawal members := .withdraw (members.map Prod.fst)
  announcement fourOctet route members :=
    .announce (attributesFor route fourOctet) (members.map Prod.fst)
  recorded route _ := route

def ipv6Plane : Plane Ipv6Prefix Ipv6Path Ipv6AdvertisedRoute Ipv6Address where
  family := .ipv6Unicast
  rib := BgpRouter.ipv6
  setRib r rib := { r with ipv6 := rib }
  eligible p := p.carries .ipv6Unicast
  desired := BgpRouter.computeIpv6AdjRibOut
  groupKey fourOctet route := (ipv6AttributesFor route fourOctet []).encodeFor false
  withdrawal members := .mpWithdraw ⟨2, 1, encodeIpv6NlriList (members.map Prod.fst)⟩
  announcement fourOctet route members :=
    .mpAnnounce (ipv6AttributesFor route fourOctet (encodeIpv6NlriList (members.map Prod.fst)))
  recorded route _ := route

def evpnPlane : Plane EvpnRouteKey EvpnPath EvpnAdvertisedRoute EvpnRoute where
  family := .l2vpnEvpn
  rib := BgpRouter.evpn
  setRib r rib := { r with evpn := rib }
  eligible p := p.carries .l2vpnEvpn
  desired := BgpRouter.computeEvpnAdjRibOut
  -- the next hop goes first, so that the groups come in the order of the pair
  groupKey fourOctet advert :=
    advert.route.nextHop.octets ++ (evpnAttributesFor advert fourOctet).encodeFor false
  withdrawal members :=
    .mpWithdraw ⟨25, 70, encodeEvpnNlriList (members.map fun m => m.2.route.nlri)⟩
  announcement fourOctet advert members :=
    .mpAnnounce { evpnAttributesFor advert fourOctet with
      mpReach := some ⟨25, 70, advert.route.nextHop.octets,
        encodeEvpnNlriList (members.map fun m => m.2.route.nlri)⟩ }
  recorded _ own := own

namespace Plane

variable {κ π ρ ο : Type} [Ord κ] (plane : Plane κ π ρ ο) (r : BgpRouter)

/-- The Adj-RIB-Out once a peer was told some routes. -/
def record (idx : ℕ) (members : List (κ × ρ)) : BgpRouter :=
  let rib := plane.rib r
  plane.setRib r { rib with adjRibOut := rib.adjRibOut.insertAll (r.peerAt idx).addr members }

/-- The Adj-RIB-Out once a peer was told that some routes are gone. -/
def forget (idx : ℕ) (ks : List κ) : BgpRouter :=
  let rib := plane.rib r
  plane.setRib r { rib with adjRibOut := rib.adjRibOut.eraseAll (r.peerAt idx).addr ks }

end Plane

namespace World

variable {σ : Type} (io : SocketRuntime σ) (w : World σ)

def ensureEnhancedRefreshBorr (idx : ℕ) (family : AfiSafi) : Bool × World σ :=
  if (w.peerAt idx).enhancedRefreshOutbound[family]? ≠ some .needBorr then (true, w)
  else
    match w.sendPdu io idx (.routeRefresh ⟨family, .beginning⟩) with
    | (false, w) => (false, w)
    | (true, w) => (true, w.updatePeer idx fun p =>
        { p with enhancedRefreshOutbound := p.enhancedRefreshOutbound.insert family .replaying })

section plane

variable {κ π ρ ο : Type} [Ord κ] [DecidableEq ρ] (plane : Plane κ π ρ ο)

/-- What the peer was told and should not hear any more. -/
def goneFrom (r : BgpRouter) (idx : ℕ) (desired : Std.TreeMap κ ρ) : List (κ × ρ) :=
  ((plane.rib r).adjRibOut.table (r.peerAt idx).addr).toList.filter fun e => !desired.contains e.1

/-- What the peer should hear and was not told yet; during a refresh all of it. -/
def dueTo (r : BgpRouter) (idx : ℕ) (desired : Std.TreeMap κ ρ) (forceRefresh : Bool) :
    List (κ × ρ) :=
  desired.toList.filter fun e =>
    forceRefresh || (plane.rib r).adjRibOut.get? (r.peerAt idx).addr e.1 ≠ some e.2

def addToGroup (fourOctet : Bool) (groups : Std.TreeMap (List UInt8) (ρ × List (κ × ρ)))
    (e : κ × ρ) : Std.TreeMap (List UInt8) (ρ × List (κ × ρ)) :=
  groups.alter (plane.groupKey fourOctet e.2) fun
    | none => some (e.2, [e])
    | some (route, members) => some (route, members ++ [e])

/-- Routes that share their attributes share a message. -/
def groupsOf (fourOctet : Bool) (due : List (κ × ρ)) : List (ρ × List (κ × ρ)) :=
  (due.foldl (addToGroup plane fourOctet) ∅).toList.map Prod.snd

def sendGroups (idx : ℕ) (fourOctet : Bool) :
    List (ρ × List (κ × ρ)) → Bool × World σ → Bool × World σ
  | [], acc => acc
  | (route, members) :: rest, (complete, w) =>
    match w.sendPdu io idx (.update (plane.announcement fourOctet route members)) with
    | (true, w) =>
      sendGroups idx fourOctet rest
        (complete, { w with
          router := plane.record w.router idx
            (members.map fun m => (m.1, plane.recorded route m.2)) })
    | (false, w) => sendGroups idx fourOctet rest (false, w)

def sendWithdrawals (idx : ℕ) (gone : List (κ × ρ)) : Bool × World σ :=
  if gone.isEmpty then (true, w)
  else
    match w.sendPdu io idx (.update (plane.withdrawal gone)) with
    | (true, w) => (true, { w with router := plane.forget w.router idx (gone.map Prod.fst) })
    | (false, w) => (false, w)

def finishRefresh (idx : ℕ) (family : AfiSafi) : World σ :=
  let w := w.updatePeer idx fun p => { p with refreshPending := p.refreshPending.erase family }
  { w with router := w.router.finishEnhancedRefreshReplay idx family }

/-- Sends a peer the difference between what it should hear and what it was told. -/
def advertise (idx : ℕ) : World σ :=
  if !plane.eligible (w.peerAt idx) then w
  else
    let forceRefresh := (w.peerAt idx).refreshPending.contains plane.family
    match if forceRefresh then w.ensureEnhancedRefreshBorr io idx plane.family else (true, w) with
    | (false, w) => w
    | (true, w) =>
      let desired := plane.desired w.router idx
      let sent := w.sendWithdrawals io plane idx (goneFrom plane w.router idx desired)
      let due := dueTo plane sent.2.router idx desired forceRefresh
      let fourOctet := (sent.2.peerAt idx).negotiated.fourOctetAs
      let sent := sendGroups io plane idx fourOctet (groupsOf plane fourOctet due) sent
      if forceRefresh && sent.1 then sent.2.finishRefresh idx plane.family else sent.2

end plane

def advertiseToPeer (idx : ℕ) : World σ := w.advertise io ipv4Plane idx

def advertiseIpv6ToPeer (idx : ℕ) : World σ := w.advertise io ipv6Plane idx

def advertiseEvpnToPeer (idx : ℕ) : World σ := w.advertise io evpnPlane idx

def sendEorrs (idx : ℕ) : List AfiSafi → World σ → World σ
  | [], w => w
  | family :: rest, w =>
    match w.sendPdu io idx (.routeRefresh ⟨family, .end⟩) with
    | (false, w) => sendEorrs idx rest w
    | (true, w) => sendEorrs idx rest (w.updatePeer idx fun p =>
        { p with enhancedRefreshOutbound := p.enhancedRefreshOutbound.erase family })

def sendEnhancedRefreshEorrs (idx : ℕ) : World σ :=
  if !(w.peerAt idx).isEstablished then w
  else
    let pending := (w.peerAt idx).enhancedRefreshOutbound.toList.filter fun e => e.2 = .needEorr
    sendEorrs io idx (pending.map Prod.fst) w

/-- The End-of-RIB marker of a family. -/
def endOfRibFor (family : AfiSafi) : Option BgpUpdateMessage :=
  if family = .ipv4Unicast then some .endOfRib
  else if family = .ipv6Unicast then some (.mpWithdraw ⟨2, 1, []⟩)
  else if family = .l2vpnEvpn then some (.mpWithdraw ⟨25, 70, []⟩)
  else none

def eorDone (idx : ℕ) (family : AfiSafi) : World σ :=
  w.updatePeer idx fun p =>
    { p with localRestartEorPending := p.localRestartEorPending.erase family }

def sendEors (idx : ℕ) : List AfiSafi → World σ → World σ
  | [], w => w
  | family :: rest, w =>
    let negotiated := (w.peerAt idx).negotiated
    if !negotiated.peer.supportsGracefulRestart || !negotiated.supports family then
      sendEors idx rest (w.eorDone idx family)
    else
      match endOfRibFor family with
      | none => sendEors idx rest (w.eorDone idx family)
      | some eor =>
        match w.sendPdu io idx (.update eor) with
        | (true, w) => sendEors idx rest (w.eorDone idx family)
        | (false, w) => sendEors idx rest w

def sendLocalRestartEors (idx : ℕ) : World σ :=
  if !(w.peerAt idx).isEstablished then w
  else sendEors io idx (w.peerAt idx).localRestartEorPending.toList w

end World

end ToyTcpip.Bgp
