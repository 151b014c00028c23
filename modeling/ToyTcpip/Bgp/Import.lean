import ToyTcpip.Bgp.Session

/-! Import of `bgp_router.rs`: what a received UPDATE does to the Adj-RIB-In of its peer. -/
namespace ToyTcpip.Bgp

def bgpSubInvalidNextHop : UInt8 := 8

def bgpSubOptionalAttributeError : UInt8 := 9

def bgpSubMaxPrefixes : UInt8 := 1

def MpReachNlri.family (mp : MpReachNlri) : AfiSafi := ⟨mp.afi, mp.safi⟩

def MpUnreachNlri.family (mp : MpUnreachNlri) : AfiSafi := ⟨mp.afi, mp.safi⟩

/-- Four octets, or an eight-octet zero RD before them. -/
def MpReachNlri.ipv4NextHop (mp : MpReachNlri) : Option Ipv4Address :=
  if mp.nextHop.length = 4 then some (addressAt mp.nextHop 0)
  else if mp.nextHop.length = 12 then some (addressAt mp.nextHop 8)
  else none

/-- The global address of a 16- or 32-octet next hop. -/
def MpReachNlri.ipv6NextHop (mp : MpReachNlri) : Option Ipv6Address :=
  if mp.nextHop.length = 16 ∨ mp.nextHop.length = 32 then some (.ofOctets mp.nextHop) else none

namespace BgpUpdateMessage

def mpReach (u : BgpUpdateMessage) : Option MpReachNlri := u.attributes.bind fun a => a.mpReach

def mpUnreach (u : BgpUpdateMessage) : Option MpUnreachNlri :=
  u.attributes.bind fun a => a.mpUnreach

end BgpUpdateMessage

namespace BgpRouter

variable (r : BgpRouter)

/-- The route has been through this speaker, or through its cluster, and has come back. -/
def reflectionLoop (attrs : BgpPathAttributes) : Bool :=
  attrs.originatorId = some r.routerId || attrs.clusterList.contains r.clusterId

/-- The route has already been through this AS. -/
def asLoop (attrs : BgpPathAttributes) : Bool := attrs.asPath.contains r.localAs

def isEbgp (idx : ℕ) : Bool := (r.peerAt idx).remoteAs ≠ r.localAs

/-- An external peer may not send an empty AS_PATH, nor one that leads with another AS. -/
def asPathRefused (idx : ℕ) (attrs : BgpPathAttributes) : Bool :=
  r.isEbgp idx &&
    (attrs.asPath.isEmpty ||
      ((r.peerAt idx).enforceFirstAs && attrs.asPath.leadingAs ≠ some (r.peerAt idx).remoteAs))

def sourceOf (idx : ℕ) : PathSource := if r.isEbgp idx then .ebgp else .ibgp

def peerRouterIdOf (idx : ℕ) : Ipv4Address :=
  (r.peerAt idx).remoteRouterId.getD (r.peerAt idx).addr

/-- The IPv4 path an announcement gives once the import policy has let it through. -/
def ipv4Path (idx nowMs : ℕ) (attrs : BgpPathAttributes) (policyLp policyMed : Option UInt32)
    (pfx : Ipv4Prefix) : BgpPath :=
  { pfx
    source := r.sourceOf idx
    peerAddr := (r.peerAt idx).addr
    peerAs := (r.peerAt idx).remoteAs
    peerRouterId := r.peerRouterIdOf idx
    origin := attrs.origin
    asPath := attrs.asPath
    nextHop := attrs.nextHop
    med := policyMed <|> attrs.med
    localPref := (policyLp <|> attrs.localPref).getD bgpDefaultLocalPref
    atomicAggregate := attrs.atomicAggregate
    originatorId := attrs.originatorId
    clusterList := attrs.clusterList
    fromClient := (r.peerAt idx).isClient
    receivedAtMs := nowMs }

def ipv6Path (idx nowMs : ℕ) (attrs : BgpPathAttributes) (nextHop : Ipv6Address)
    (pfx : Ipv6Prefix) : Ipv6Path :=
  { pfx
    source := r.sourceOf idx
    peerAddr := (r.peerAt idx).addr
    peerAs := (r.peerAt idx).remoteAs
    peerRouterId := r.peerRouterIdOf idx
    origin := attrs.origin
    asPath := attrs.asPath
    nextHop
    med := attrs.med
    localPref := attrs.localPref.getD bgpDefaultLocalPref
    atomicAggregate := attrs.atomicAggregate
    originatorId := attrs.originatorId
    clusterList := attrs.clusterList
    fromClient := (r.peerAt idx).isClient
    receivedAtMs := nowMs }

def evpnRouteOf (attrs : BgpPathAttributes) (nextHop : Ipv4Address) (nlri : EvpnNlri) : EvpnRoute :=
  { nlri
    nextHop
    routeTargets := routeTargetsFromCommunities attrs.extCommunities
    mobilitySeq := macMobilityFromCommunities attrs.extCommunities
    otherCommunities := otherExtCommunities attrs.extCommunities }

def evpnPath (idx nowMs : ℕ) (attrs : BgpPathAttributes) (route : EvpnRoute) : EvpnPath :=
  { route
    peerAddr := (r.peerAt idx).addr
    peerAs := (r.peerAt idx).remoteAs
    peerRouterId := r.peerRouterIdOf idx
    origin := attrs.origin
    asPath := attrs.asPath
    localPref := attrs.localPref.getD bgpDefaultLocalPref
    originatorId := attrs.originatorId
    clusterList := attrs.clusterList
    fromClient := (r.peerAt idx).isClient
    importable := route.matchesImport r.importRts
    receivedAtMs := nowMs
    isLocal := false }

end BgpRouter

/-- An address no packet could be sent to. -/
def unusableNextHop (ip : Ipv4Address) : Bool :=
  ip.isUnspecified || ip.isLoopback || ip.isMulticast || ip.isBroadcast

def unusableIpv6NextHop (ip : Ipv6Address) : Bool :=
  ip.isUnspecified || ip.isLoopback || ip.isMulticast

namespace World

variable {σ : Type} (w : World σ)

def receiveIpv4 (idx : ℕ) (path : BgpPath) : World σ :=
  { w.log (.store w.router idx (.ipv4 path)) with
    router := { w.router.updatePeer idx fun p =>
        { p with enhancedRefreshStaleIpv4 := p.enhancedRefreshStaleIpv4.erase path.pfx } with
      ipv4 := w.router.ipv4.receive (w.peerAt idx).addr path } }

def receiveIpv6 (idx : ℕ) (path : Ipv6Path) : World σ :=
  { w.log (.store w.router idx (.ipv6 path)) with
    router := { w.router.updatePeer idx fun p =>
        { p with enhancedRefreshStaleIpv6 := p.enhancedRefreshStaleIpv6.erase path.pfx } with
      ipv6 := w.router.ipv6.receive (w.peerAt idx).addr path } }

def receiveEvpn (idx : ℕ) (path : EvpnPath) : World σ :=
  { w.log (.store w.router idx (.evpn path)) with
    router := { w.router.updatePeer idx fun p =>
        { p with enhancedRefreshStaleEvpn := p.enhancedRefreshStaleEvpn.erase path.key } with
      evpn := w.router.evpn.receive (w.peerAt idx).addr path } }

def withdrawIpv4 (idx : ℕ) (ks : List Ipv4Prefix) : World σ :=
  { w with router := { w.router with ipv4 := w.router.ipv4.withdrawAll (w.peerAt idx).addr ks } }

def withdrawIpv6 (idx : ℕ) (ks : List Ipv6Prefix) : World σ :=
  { w with router := { w.router with ipv6 := w.router.ipv6.withdrawAll (w.peerAt idx).addr ks } }

def withdrawEvpn (idx : ℕ) (ks : List EvpnRouteKey) : World σ :=
  { w with router := { w.router with evpn := w.router.evpn.withdrawAll (w.peerAt idx).addr ks } }

/-! ### IPv4 -/

/-- The loop over the announced prefixes. -/
def importPrefixes (idx nowMs : ℕ) (attrs : BgpPathAttributes) :
    List Ipv4Prefix → World σ → World σ × Option BgpNotificationMessage
  | [], w => (w, none)
  | pfx :: rest, w =>
    -- the next hop would point straight back at this speaker
    if attrs.nextHop = (w.peerAt idx).localAddr then importPrefixes idx nowMs attrs rest w
    else
      match (w.peerAt idx).importPolicy.apply pfx with
      | .denied => importPrefixes idx nowMs attrs rest (w.withdrawIpv4 idx [pfx])
      | .permitted lp med =>
        let w := w.receiveIpv4 idx (w.router.ipv4Path idx nowMs attrs lp med pfx)
        if w.router.ipv4.adjRibIn.count (w.peerAt idx).addr > (w.peerAt idx).maxPrefixes then
          (w, some (.new bgpErrCease bgpSubMaxPrefixes))
        else importPrefixes idx nowMs attrs rest w

/-- A route that fails a check is discarded; a next hop that cannot be a host address, or an AS_PATH
that is not the peer's, resets the session. -/
def importUpdate (idx nowMs : ℕ) (update : BgpUpdateMessage) :
    World σ × Option BgpNotificationMessage :=
  let w := w.withdrawIpv4 idx update.withdrawn
  match update.attributes with
  | none => (w, none)
  | some attrs =>
    if update.nlri.isEmpty then (w, none)
    else if unusableNextHop attrs.nextHop then
      (w, some (.new bgpErrUpdateMessage bgpSubInvalidNextHop))
    else if w.router.asPathRefused idx attrs then
      (w, some (.new bgpErrUpdateMessage bgpSubMalformedAsPath))
    else if w.router.reflectionLoop attrs then (w, none)
    else if w.router.asLoop attrs then (w, none)
    else importPrefixes idx nowMs attrs update.nlri w

/-! ### IPv6 -/

def importIpv6Prefixes (idx nowMs : ℕ) (attrs : BgpPathAttributes) (nextHop : Ipv6Address) :
    List Ipv6Prefix → World σ → World σ × Option Teardown
  | [], w => (w, none)
  | pfx :: rest, w =>
    if w.router.ipv6NextHop = some nextHop then importIpv6Prefixes idx nowMs attrs nextHop rest w
    else
      let w := w.receiveIpv6 idx (w.router.ipv6Path idx nowMs attrs nextHop pfx)
      if w.router.ipv6.adjRibIn.count (w.peerAt idx).addr > (w.peerAt idx).maxPrefixes then
        (w, some (.protocol (.new bgpErrCease bgpSubMaxPrefixes)))
      else importIpv6Prefixes idx nowMs attrs nextHop rest w

def importIpv6Withdrawals (idx : ℕ) (update : BgpUpdateMessage) : World σ × Option Teardown :=
  match update.mpUnreach with
  | some mp =>
    if mp.family = .ipv6Unicast then
      match Ipv6Prefix.decodeList mp.nlri with
      | .ok prefixes => (w.withdrawIpv6 idx prefixes, none)
      | .error e => (w, some (.protocol (.new e.code e.subcode)))
      | .panic => (w, none)
    else (w, none)
  | none => (w, none)

def importIpv6Announcements (idx nowMs : ℕ) (update : BgpUpdateMessage) :
    World σ × Option Teardown :=
  match update.mpReach with
  | none => (w, none)
  | some mp =>
    if mp.family ≠ .ipv6Unicast then (w, none)
    else
      match mp.ipv6NextHop with
      | none => (w, some (.protocol (.new bgpErrUpdateMessage bgpSubInvalidNextHop)))
      | some nextHop =>
        if unusableIpv6NextHop nextHop then
          (w, some (.protocol (.new bgpErrUpdateMessage bgpSubInvalidNextHop)))
        else
          match Ipv6Prefix.decodeList mp.nlri with
          | .error e => (w, some (.protocol (.new e.code e.subcode)))
          | .panic => (w, none)
          | .ok prefixes =>
            if prefixes.isEmpty then (w, none)
            else
              match update.attributes with
              | none => (w, none)
              | some attrs =>
                if w.router.asPathRefused idx attrs then
                  (w, some (.protocol (.new bgpErrUpdateMessage bgpSubMalformedAsPath)))
                else if w.router.reflectionLoop attrs then (w, none)
                else if w.router.asLoop attrs then (w, none)
                else importIpv6Prefixes idx nowMs attrs nextHop prefixes w

/-- Nothing is read on a session that did not agree on the family. -/
def importIpv6MpUpdate (idx nowMs : ℕ) (update : BgpUpdateMessage) : World σ × Option Teardown :=
  if !(w.peerAt idx).negotiated.supports .ipv6Unicast then (w, none)
  else
    match w.importIpv6Withdrawals idx update with
    | (w, some t) => (w, some t)
    | (w, none) => w.importIpv6Announcements idx nowMs update

/-! ### EVPN -/

def importEvpnRoutes (idx nowMs : ℕ) (attrs : BgpPathAttributes) (nextHop : Ipv4Address)
    (retainAll : Bool) : List EvpnNlri → World σ → World σ × Option Teardown
  | [], w => (w, none)
  | n :: rest, w =>
    let route := BgpRouter.evpnRouteOf attrs nextHop n
    if !route.matchesImport w.router.importRts && !retainAll then
      -- a route that used to match and no longer does goes
      importEvpnRoutes idx nowMs attrs nextHop retainAll rest (w.withdrawEvpn idx [route.key])
    else
      let w := w.receiveEvpn idx (w.router.evpnPath idx nowMs attrs route)
      if w.router.evpn.adjRibIn.count (w.peerAt idx).addr > maxEvpnRoutes then
        (w, some (.protocol (.new bgpErrCease bgpSubMaxPrefixes)))
      else importEvpnRoutes idx nowMs attrs nextHop retainAll rest w

def importEvpnWithdrawals (idx : ℕ) (update : BgpUpdateMessage) : World σ × Option Teardown :=
  match update.mpUnreach with
  | some mp =>
    if mp.family = .l2vpnEvpn then
      match decodeEvpnNlriList mp.nlri with
      | .ok nlri => (w.withdrawEvpn idx (nlri.map EvpnRouteKey.fromNlri), none)
      | .error e => (w, some (.protocol (.new e.code e.subcode)))
      | .panic => (w, none)
    else (w, none)
  | none => (w, none)

def importEvpnAnnouncements (idx nowMs : ℕ) (update : BgpUpdateMessage) :
    World σ × Option Teardown :=
  match update.mpReach with
  | none => (w, none)
  | some mp =>
    if mp.family ≠ .l2vpnEvpn then (w, none)
    else
      match mp.ipv4NextHop with
      | none => (w, some (.protocol (.new bgpErrUpdateMessage bgpSubInvalidNextHop)))
      | some nextHop =>
        if unusableNextHop nextHop then
          (w, some (.protocol (.new bgpErrUpdateMessage bgpSubInvalidNextHop)))
        else
          match decodeEvpnNlriList mp.nlri with
          | .error e => (w, some (.protocol (.new e.code e.subcode)))
          | .panic => (w, none)
          | .ok nlri =>
            match update.attributes with
            | none => (w, none)
            | some attrs =>
              if w.router.asPathRefused idx attrs then
                (w, some (.protocol (.new bgpErrUpdateMessage bgpSubMalformedAsPath)))
              else if w.router.reflectionLoop attrs then (w, none)
              else if w.router.asLoop attrs then (w, none)
              else
                importEvpnRoutes idx nowMs attrs nextHop w.router.retainsAllRouteTargets nlri w

/-- EVPN routes on a session that did not agree on the family are a protocol violation. -/
def evpnNotNegotiated (idx : ℕ) (update : BgpUpdateMessage) : Bool :=
  ((update.mpReach.any fun m => m.family = .l2vpnEvpn) ||
    update.mpUnreach.any fun m => m.family = .l2vpnEvpn) &&
  !(w.peerAt idx).negotiated.supports .l2vpnEvpn

/-- The multiprotocol part of a received UPDATE. -/
def importMpUpdate (idx nowMs : ℕ) (update : BgpUpdateMessage) : World σ × Option Teardown :=
  if w.evpnNotNegotiated idx update then
    (w, some (.protocol (.new bgpErrUpdateMessage bgpSubOptionalAttributeError)))
  else
    match w.importIpv6MpUpdate idx nowMs update with
    | (w, some t) => (w, some t)
    | (w, none) =>
      match w.importEvpnWithdrawals idx update with
      | (w, some t) => (w, some t)
      | (w, none) => w.importEvpnAnnouncements idx nowMs update

end World

end ToyTcpip.Bgp
