import ToyTcpip.Ipv6Packet
import ToyTcpip.Routing.Table

/-! The IPv6 routing table of `router_ipv6.rs`. -/
namespace ToyTcpip.Routing

def destinationAffinityHash (destination : Ipv6Address) : UInt64 :=
  fnv1aExtend fnvOffsetBasis destination.octets

structure Ipv6FlowKey where
  source : Ipv6Address
  destination : Ipv6Address
  nextHeader : UInt8
  sourcePort : ℕ
  destinationPort : ℕ

def Ipv6FlowKey.stableHash (flow : Ipv6FlowKey) : UInt64 :=
  let hash := fnv1aExtend fnvOffsetBasis flow.source.octets
  let hash := fnv1aExtend hash flow.destination.octets
  let hash := fnv1aExtend hash [flow.nextHeader]
  let hash := fnv1aExtend hash (toBeBytes16 flow.sourcePort)
  fnv1aExtend hash (toBeBytes16 flow.destinationPort)

structure Ipv6RouteEntry where
  destination : Ipv6Address
  prefixLen : ℕ
  gateway : Option Ipv6Address
  interface : String
  source : RouteSource
  deriving DecidableEq, Repr

namespace Ipv6RouteEntry

def withSource (destination : Ipv6Address) (len : ℕ) (gateway : Option Ipv6Address)
    (interface : String) (source : RouteSource) : Ipv6RouteEntry :=
  let len := min len 128
  ⟨destination.mask len, len, gateway, interface, source⟩

def matchesAddr (e : Ipv6RouteEntry) (ip : Ipv6Address) : Bool :=
  ip.mask e.prefixLen = e.destination

def distance (e : Ipv6RouteEntry) : ℕ := e.source.distance

def key (e : Ipv6RouteEntry) : Ipv6Address × ℕ := (e.destination, e.prefixLen)

end Ipv6RouteEntry

structure Ipv6RoutingTable where
  routes : List Ipv6RouteEntry

namespace Ipv6RoutingTable

def new : Ipv6RoutingTable := ⟨[]⟩

def sort (t : Ipv6RoutingTable) : Ipv6RoutingTable :=
  ⟨Ranked.arrange Ipv6RouteEntry.prefixLen Ipv6RouteEntry.distance t.routes⟩

def addRouteFrom (t : Ipv6RoutingTable) (destination : Ipv6Address) (len : ℕ)
    (gateway : Option Ipv6Address) (interface : String) (source : RouteSource) :
    Ipv6RoutingTable :=
  let entry := Ipv6RouteEntry.withSource destination len gateway interface source
  sort ⟨replaceOrPush (fun r => r.key = entry.key ∧ r.source = source) entry t.routes⟩

def addMultipathRouteFrom (t : Ipv6RoutingTable) (destination : Ipv6Address) (len : ℕ)
    (gateway : Option Ipv6Address) (interface : String) (source : RouteSource) :
    Ipv6RoutingTable :=
  let entry := Ipv6RouteEntry.withSource destination len gateway interface source
  let duplicate := t.routes.any fun route =>
    route.key = entry.key ∧ route.gateway = entry.gateway ∧ route.interface = entry.interface ∧
      route.source = entry.source
  if duplicate then t else sort ⟨t.routes ++ [entry]⟩

def removeRoute (t : Ipv6RoutingTable) (destination : Ipv6Address) (len : ℕ)
    (source : RouteSource) : Ipv6RoutingTable :=
  let key := (destination.mask len, min len 128)
  ⟨t.routes.filter fun r => ¬ (r.key = key ∧ r.source = source)⟩

def removeRouteVia (t : Ipv6RoutingTable) (destination : Ipv6Address) (len : ℕ)
    (gateway : Option Ipv6Address) (interface : String) (source : RouteSource) :
    Ipv6RoutingTable :=
  let key := (destination.mask len, min len 128)
  ⟨t.routes.filter fun r =>
    ¬ (r.key = key ∧ r.gateway = gateway ∧ r.interface = interface ∧ r.source = source)⟩

def removeAllFrom (t : Ipv6RoutingTable) (source : RouteSource) : Ipv6RoutingTable :=
  ⟨t.routes.filter fun r => r.source ≠ source⟩

def step (t : Ipv6RoutingTable) : RouteCall Ipv6Address → Ipv6RoutingTable
  | .addRouteFrom d len gw i s => t.addRouteFrom d len gw i s
  | .addMultipathRouteFrom d len gw i s => t.addMultipathRouteFrom d len gw i s
  | .removeRoute d len s => t.removeRoute d len s
  | .removeRouteVia d len gw i s => t.removeRouteVia d len gw i s
  | .removeAllFrom s => t.removeAllFrom s

/-- The matching routes tied with `best` on prefix length and distance, in table order. -/
def candidates (t : Ipv6RoutingTable) (dst : Ipv6Address) (best : Ipv6RouteEntry) :
    List Ipv6RouteEntry :=
  Ranked.tied Ipv6RouteEntry.prefixLen Ipv6RouteEntry.distance (fun r => r.matchesAddr dst) t.routes
    best

/-- Unlike the IPv4 table's, this lookup spreads over the tied routes by itself. -/
def lookup (t : Ipv6RoutingTable) (dst : Ipv6Address) : Option Ipv6RouteEntry :=
  (t.routes.find? fun r => r.matchesAddr dst).bind fun best =>
    Ranked.nth (t.candidates dst best) (destinationAffinityHash dst).toNat

def lookupBestRoutes (t : Ipv6RoutingTable) (dst : Ipv6Address) : List Ipv6RouteEntry :=
  match t.lookup dst with
  | none => []
  | some best => t.candidates dst best

def lookupBestRouteByHash (t : Ipv6RoutingTable) (dst : Ipv6Address) (flowHash : UInt64) :
    Option Ipv6RouteEntry :=
  (t.lookup dst).bind fun best => Ranked.nth (t.candidates dst best) flowHash.toNat

def lookupBestRouteForFlow (t : Ipv6RoutingTable) (flow : Ipv6FlowKey) : Option Ipv6RouteEntry :=
  t.lookupBestRouteByHash flow.destination flow.stableHash

end Ipv6RoutingTable

end ToyTcpip.Routing
