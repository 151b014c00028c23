import ToyTcpip.Bgp.Capability
import ToyTcpip.Bgp.Chunking
import ToyTcpip.Bgp.Evpn
import ToyTcpip.Bgp.Ipv6Rib

/-! The state of the BGP speaker of `bgp_router.rs` and its configuration calls. Counters, log lines
and the forwarding tables are left out. -/
namespace ToyTcpip.Bgp

def defaultConnectRetryMs : ℕ := 5000

def defaultHoldTime : UInt16 := 90

def initialHoldMs : ℕ := 240000

def defaultMaxPrefixes : ℕ := 4096

def defaultGracefulRestartTime : UInt16 := 120

def bgpMinHoldTime : UInt16 := 3

inductive BgpState where
  | idle
  | connect
  | active
  | openSent
  | openConfirm
  | established
  deriving DecidableEq, Repr

inductive BgpPeerMode where
  | active
  | passive
  deriving DecidableEq, Repr

inductive BgpPeerRole where
  | normal
  | routeReflectorClient
  deriving DecidableEq, Repr

def BgpPeerRole.isClient (role : BgpPeerRole) : Bool := role = .routeReflectorClient

inductive EnhancedRefreshPhase where
  | needBorr
  | replaying
  | needEorr
  deriving DecidableEq, Repr

/-- A second connection to a peer that already has one. -/
structure CollisionConn where
  stream : ℕ
  framer : BgpFramer
  deriving DecidableEq, Repr

/-- One configured neighbour and the session state that belongs to it. -/
structure BgpPeer where
  addr : Ipv4Address
  remoteAs : UInt32
  localAddr : Ipv4Address
  mode : BgpPeerMode
  role : BgpPeerRole := .normal
  adminUp : Bool := true
  state : BgpState := .idle
  stream : Option ℕ := none
  streamInbound : Bool := false
  framer : BgpFramer := .new
  collision : Option CollisionConn := none
  connectRetryDeadline : Option ℕ := none
  holdDeadline : Option ℕ := none
  keepaliveDeadline : Option ℕ := none
  negotiatedHoldMs : ℕ := 0
  keepaliveIntervalMs : ℕ := 0
  negotiated : NegotiatedCapabilities := .default
  refreshPending : Std.TreeSet AfiSafi := ∅
  enhancedRefreshOutbound : Std.TreeMap AfiSafi EnhancedRefreshPhase := ∅
  enhancedRefreshInbound : Std.TreeSet AfiSafi := ∅
  enhancedRefreshStaleIpv4 : Std.TreeSet Ipv4Prefix := ∅
  enhancedRefreshStaleIpv6 : Std.TreeSet Ipv6Prefix := ∅
  enhancedRefreshStaleEvpn : Std.TreeSet EvpnRouteKey := ∅
  localRestartEorPending : Std.TreeSet AfiSafi := ∅
  gracefulRestartStale : Std.TreeSet AfiSafi := ∅
  gracefulRestartDeadline : Option ℕ := none
  gracefulRestartRefreshStartedMs : Option ℕ := none
  remoteRouterId : Option Ipv4Address := none
  importPolicy : RoutePolicy := .new
  exportPolicy : RoutePolicy := .new
  nextHopSelf : Bool := false
  maxPrefixes : ℕ := defaultMaxPrefixes
  enforceFirstAs : Bool := true
  txDesynced : Bool := false

namespace BgpPeer

def new (addr : Ipv4Address) (remoteAs : UInt32) (localAddr : Ipv4Address) (mode : BgpPeerMode) :
    BgpPeer :=
  { addr, remoteAs, localAddr, mode }

instance : Inhabited BgpPeer := ⟨new .unspecified 0 .unspecified .passive⟩

def isEstablished (p : BgpPeer) : Bool := p.state = .established

def carries (p : BgpPeer) (family : AfiSafi) : Bool :=
  p.isEstablished && p.negotiated.supports family

def isClient (p : BgpPeer) : Bool := p.role.isClient

/-- Routes from this peer are being retained. -/
def gracefulRestartActive (p : BgpPeer) : Bool :=
  p.gracefulRestartDeadline.isSome && !p.gracefulRestartStale.isEmpty

end BgpPeer

/-- The three RIBs of one address family, what this speaker originates in it, and whether its
decision process has to run again. -/
structure Rib (κ π ρ ο : Type) [Ord κ] where
  adjRibIn : Nested Ipv4Address κ π := .empty
  locRib : Std.TreeMap κ π := ∅
  adjRibOut : Nested Ipv4Address κ ρ := .empty
  originated : Std.TreeMap κ ο := ∅
  dirty : Bool := true

/-- What the three kinds of path have in common. -/
class RoutePath (π : Type) (κ : outParam Type) where
  key : π → κ
  peerAddr : π → Ipv4Address
  receivedAtMs : π → ℕ
  sameRouteAs : π → π → Bool
  setFromClient : Bool → π → π

instance : RoutePath BgpPath Ipv4Prefix where
  key := BgpPath.pfx
  peerAddr := BgpPath.peerAddr
  receivedAtMs := BgpPath.receivedAtMs
  sameRouteAs := BgpPath.sameRouteAs
  setFromClient b p := { p with fromClient := b }

instance : RoutePath Ipv6Path Ipv6Prefix where
  key := Ipv6Path.pfx
  peerAddr := Ipv6Path.peerAddr
  receivedAtMs := Ipv6Path.receivedAtMs
  sameRouteAs := Ipv6Path.sameRouteAs
  setFromClient b p := { p with fromClient := b }

instance : RoutePath EvpnPath EvpnRouteKey where
  key := EvpnPath.key
  peerAddr := EvpnPath.peerAddr
  receivedAtMs := EvpnPath.receivedAtMs
  sameRouteAs := EvpnPath.sameRouteAs
  setFromClient b p := { p with fromClient := b }

namespace Rib

variable {κ π ρ ο : Type} [Ord κ] [RoutePath π κ]

/-- Only a genuine change to the route marks the RIB; an identical re-advertisement still refreshes
the stored path. -/
def receive (rib : Rib κ π ρ ο) (addr : Ipv4Address) (path : π) : Rib κ π ρ ο :=
  let previous := rib.adjRibIn.get? addr (RoutePath.key path)
  { rib with
    adjRibIn := rib.adjRibIn.insert addr (RoutePath.key path) path
    dirty := rib.dirty || previous.all fun prev => !RoutePath.sameRouteAs prev path }

def withdraw (rib : Rib κ π ρ ο) (addr : Ipv4Address) (k : κ) : Rib κ π ρ ο :=
  if (rib.adjRibIn.get? addr k).isSome then
    { rib with adjRibIn := rib.adjRibIn.erase addr k, dirty := true }
  else rib

def withdrawAll (rib : Rib κ π ρ ο) (addr : Ipv4Address) (ks : List κ) : Rib κ π ρ ο :=
  ks.foldl (fun rib k => rib.withdraw addr k) rib

/-- The keys of a peer's paths received before a cutoff, or of all of them. -/
def staleKeys (rib : Rib κ π ρ ο) (addr : Ipv4Address) (cutoff : Option ℕ) : List κ :=
  ((rib.adjRibIn.table addr).toList.filter fun e =>
    cutoff.all fun t => RoutePath.receivedAtMs e.2 < t).map Prod.fst

def purge (rib : Rib κ π ρ ο) (addr : Ipv4Address) (cutoff : Option ℕ) : Rib κ π ρ ο :=
  rib.withdrawAll addr (rib.staleKeys addr cutoff)

/-- Drops what was learned from a peer. -/
def clearIn (rib : Rib κ π ρ ο) (addr : Ipv4Address) : Rib κ π ρ ο :=
  { rib with
    adjRibIn := rib.adjRibIn.clear addr
    dirty := rib.dirty || decide (0 < rib.adjRibIn.count addr) }

/-- Forgets what was advertised to a peer. -/
def clearOut (rib : Rib κ π ρ ο) (addr : Ipv4Address) : Rib κ π ρ ο :=
  { rib with adjRibOut := rib.adjRibOut.clear addr }

def heldKeys (rib : Rib κ π ρ ο) (addr : Ipv4Address) : Std.TreeSet κ :=
  Std.TreeSet.ofList (rib.adjRibIn.table addr).keys

def markFromClient (rib : Rib κ π ρ ο) (addr : Ipv4Address) (isClient : Bool) : Rib κ π ρ ο :=
  { rib with
    adjRibIn := rib.adjRibIn.mapTable addr (RoutePath.setFromClient isClient)
    dirty := true }

def originate (rib : Rib κ π ρ ο) (k : κ) (route : ο) : Rib κ π ρ ο :=
  { rib with originated := rib.originated.insert k route, dirty := true }

def withdrawOriginated (rib : Rib κ π ρ ο) (k : κ) : Rib κ π ρ ο :=
  if rib.originated.contains k then
    { rib with originated := rib.originated.erase k, dirty := true }
  else rib

end Rib

abbrev Ipv4Rib : Type := Rib Ipv4Prefix BgpPath AdvertisedRoute Ipv4Address

abbrev Ipv6Rib : Type := Rib Ipv6Prefix Ipv6Path Ipv6AdvertisedRoute Ipv6Address

abbrev EvpnRib : Type := Rib EvpnRouteKey EvpnPath EvpnAdvertisedRoute EvpnRoute

/-- A BGP-4 speaker. -/
structure BgpRouter where
  localAs : UInt32
  routerId : Ipv4Address
  holdTime : UInt16 := defaultHoldTime
  connectRetryMs : ℕ := defaultConnectRetryMs
  enhancedRouteRefreshEnabled : Bool := true
  gracefulRestartEnabled : Bool := true
  gracefulRestartTime : UInt16 := defaultGracefulRestartTime
  gracefulRestartRestarting : Bool := false
  gracefulRestartForwardingPreserved : Std.TreeSet AfiSafi := {AfiSafi.ipv4Unicast}
  gracefulRestartRecoveryPending : Std.TreeSet AfiSafi := ∅
  gracefulRestartLocalDeadline : Option ℕ := none
  peers : List BgpPeer := []
  listener : Option ℕ := none
  ipv4 : Ipv4Rib := {}
  ipv6 : Ipv6Rib := {}
  evpn : EvpnRib := {}
  /-- The best EVPN path per route among everything received, imported or not. -/
  evpnAdvertiseRib : EvpnLocRib := ∅
  ipv6NextHop : Option Ipv6Address := none
  families : Std.TreeSet AfiSafi := {AfiSafi.ipv4Unicast}
  importRts : Std.TreeSet RouteTarget := ∅
  clusterIdSet : Option Ipv4Address := none
  retainAllRts : Bool := false

namespace BgpRouter

def new (localAs : UInt32) (routerId : Ipv4Address) : BgpRouter := { localAs, routerId }

def peerAt (r : BgpRouter) (idx : ℕ) : BgpPeer := r.peers.getD idx default

def updatePeer (r : BgpRouter) (idx : ℕ) (f : BgpPeer → BgpPeer) : BgpRouter :=
  { r with peers := r.peers.modify idx f }

def peer (r : BgpRouter) (addr : Ipv4Address) : Option BgpPeer :=
  r.peers.find? fun p => p.addr = addr

def position (r : BgpRouter) (addr : Ipv4Address) : Option ℕ :=
  r.peers.findIdx? fun p => p.addr = addr

/-- `peer_mut`: the first neighbour with this address. -/
def updateNamed (r : BgpRouter) (addr : Ipv4Address) (f : BgpPeer → BgpPeer) : BgpRouter :=
  match r.position addr with
  | some idx => r.updatePeer idx f
  | none => r

/-- The cluster identifier defaults to the BGP identifier. -/
def clusterId (r : BgpRouter) : Ipv4Address := r.clusterIdSet.getD r.routerId

def isRouteReflector (r : BgpRouter) : Bool := r.peers.any BgpPeer.isClient

def retainsAllRouteTargets (r : BgpRouter) : Bool := r.retainAllRts || r.isRouteReflector

def setAllDirty (r : BgpRouter) : BgpRouter :=
  { r with
    ipv4 := { r.ipv4 with dirty := true }
    ipv6 := { r.ipv6 with dirty := true }
    evpn := { r.evpn with dirty := true } }

/-! ### Configuration -/

def setClusterId (r : BgpRouter) (id : Ipv4Address) : BgpRouter :=
  if r.clusterIdSet = some id then r else { r with clusterIdSet := some id }.setAllDirty

/-- Stored paths of the peer are stamped with its new role. -/
def setRouteReflectorClient (r : BgpRouter) (addr : Ipv4Address) (on : Bool) : BgpRouter :=
  let role := if on then BgpPeerRole.routeReflectorClient else .normal
  match r.position addr with
  | none => r
  | some idx =>
    if (r.peerAt idx).role = role then r
    else
      let r := r.updatePeer idx fun p => { p with role }
      { r with
        ipv4 := r.ipv4.markFromClient addr role.isClient
        ipv6 := r.ipv6.markFromClient addr role.isClient
        evpn := r.evpn.markFromClient addr role.isClient }

def setRetainAllRouteTargets (r : BgpRouter) (on : Bool) : BgpRouter :=
  if r.retainAllRts = on then r
  else { r with retainAllRts := on, evpn := { r.evpn with dirty := true } }

def setHoldTime (r : BgpRouter) (seconds : UInt16) : BgpRouter :=
  { r with holdTime := if seconds = 0 then 0 else max seconds bgpMinHoldTime }

def setConnectRetryMs (r : BgpRouter) (ms : ℕ) : BgpRouter := { r with connectRetryMs := max ms 1 }

def setEnhancedRouteRefreshEnabled (r : BgpRouter) (enabled : Bool) : BgpRouter :=
  { r with enhancedRouteRefreshEnabled := enabled }

def setGracefulRestartEnabled (r : BgpRouter) (enabled : Bool) : BgpRouter :=
  { r with gracefulRestartEnabled := enabled }

def setGracefulRestartTime (r : BgpRouter) (seconds : UInt16) : BgpRouter :=
  { r with gracefulRestartTime := min seconds bgpGrMaxRestartTime }

def setGracefulRestartForwardingPreserved (r : BgpRouter) (family : AfiSafi) (preserved : Bool) :
    BgpRouter :=
  { r with gracefulRestartForwardingPreserved :=
      if preserved then r.gracefulRestartForwardingPreserved.insert family
      else r.gracefulRestartForwardingPreserved.erase family }

/-- Peers are kept sorted by address; a configured address is not added again. -/
def addPeer (r : BgpRouter) (addr : Ipv4Address) (remoteAs : UInt32) (localAddr : Ipv4Address)
    (mode : BgpPeerMode) : BgpRouter :=
  if r.peers.any fun p => p.addr = addr then r
  else
    let peers := r.peers ++ [.new addr remoteAs localAddr mode]
    { r with peers := peers.insertionSort (fun p q => p.addr.toU32.toNat ≤ q.addr.toU32.toNat) }

def setImportPolicy (r : BgpRouter) (addr : Ipv4Address) (policy : RoutePolicy) : BgpRouter :=
  r.updateNamed addr fun p => { p with importPolicy := policy }

def setExportPolicy (r : BgpRouter) (addr : Ipv4Address) (policy : RoutePolicy) : BgpRouter :=
  r.updateNamed addr fun p => { p with exportPolicy := policy }

def setNextHopSelf (r : BgpRouter) (addr : Ipv4Address) (on : Bool) : BgpRouter :=
  r.updateNamed addr fun p => { p with nextHopSelf := on }

def setMaxPrefixes (r : BgpRouter) (addr : Ipv4Address) (limit : ℕ) : BgpRouter :=
  r.updateNamed addr fun p => { p with maxPrefixes := limit }

def setEnforceFirstAs (r : BgpRouter) (addr : Ipv4Address) (on : Bool) : BgpRouter :=
  r.updateNamed addr fun p => { p with enforceFirstAs := on }

def enablePeer (r : BgpRouter) (addr : Ipv4Address) : BgpRouter :=
  r.updateNamed addr fun p => { p with adminUp := true, connectRetryDeadline := none }

def enableFamily (r : BgpRouter) (family : AfiSafi) : BgpRouter :=
  { r with
    families := r.families.insert family
    gracefulRestartForwardingPreserved := r.gracefulRestartForwardingPreserved.insert family }

def originate (r : BgpRouter) (pfx : Ipv4Prefix) (nextHop : Ipv4Address) : BgpRouter :=
  { r with ipv4 := r.ipv4.originate pfx nextHop }

def withdrawOriginated (r : BgpRouter) (pfx : Ipv4Prefix) : BgpRouter :=
  { r with ipv4 := r.ipv4.withdrawOriginated pfx }

def setIpv6NextHop (r : BgpRouter) (address : Ipv6Address) : BgpRouter :=
  { r with ipv6NextHop := some address }

def originateIpv6 (r : BgpRouter) (pfx : Ipv6Prefix) (nextHop : Ipv6Address) : BgpRouter :=
  let r := r.enableFamily .ipv6Unicast
  { r with ipv6 := r.ipv6.originate pfx nextHop }

def withdrawOriginatedIpv6 (r : BgpRouter) (pfx : Ipv6Prefix) : BgpRouter :=
  { r with ipv6 := r.ipv6.withdrawOriginated pfx }

def addImportRouteTarget (r : BgpRouter) (rt : RouteTarget) : BgpRouter :=
  if r.importRts.contains rt then r
  else { r with importRts := r.importRts.insert rt, evpn := { r.evpn with dirty := true } }

/-- Routes that match no import target any more are dropped with it. -/
def removeImportRouteTarget (r : BgpRouter) (rt : RouteTarget) : BgpRouter :=
  if r.importRts.contains rt then
    let importRts := r.importRts.erase rt
    let unmatched := r.evpn.adjRibIn.entries.filter fun e => !e.2.2.route.matchesImport importRts
    { r with
      importRts
      evpn := { r.evpn with
        adjRibIn := unmatched.foldl (fun t e => t.erase e.2.2.peerAddr e.2.2.key) r.evpn.adjRibIn
        dirty := true } }
  else r

/-- An identical re-origination is a no-op. -/
def originateEvpn (r : BgpRouter) (route : EvpnRoute) : BgpRouter :=
  if r.evpn.originated[route.key]? = some route then r
  else { r with evpn := r.evpn.originate route.key route }

def withdrawEvpn (r : BgpRouter) (key : EvpnRouteKey) : BgpRouter :=
  { r with evpn := r.evpn.withdrawOriginated key }

end BgpRouter

end ToyTcpip.Bgp
