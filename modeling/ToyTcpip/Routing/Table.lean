import ToyTcpip.Ipv4
import ToyTcpip.Lib.Ranked

/-! The IPv4 routing table of `router.rs`. -/
namespace ToyTcpip

def Ipv4Address.toU32 (ip : Ipv4Address) : BitVec 32 :=
  ip.a.toBitVec ++ ip.b.toBitVec ++ ip.c.toBitVec ++ ip.d.toBitVec

def Ipv4Address.fromU32 (v : BitVec 32) : Ipv4Address :=
  ⟨⟨v.extractLsb' 24 8⟩, ⟨v.extractLsb' 16 8⟩, ⟨v.extractLsb' 8 8⟩, ⟨v.extractLsb' 0 8⟩⟩

@[simp] theorem Ipv4Address.fromU32_toU32 (ip : Ipv4Address) : fromU32 ip.toU32 = ip := by
  obtain ⟨a, b, c, d⟩ := ip
  simp only [fromU32, toU32, Ipv4Address.mk.injEq]
  refine ⟨?_, ?_, ?_, ?_⟩ <;>
  · apply UInt8.toBitVec_inj.mp
    ext i hi
    simp only [BitVec.getElem_extractLsb', BitVec.getLsbD_append]
    grind

@[simp] theorem Ipv4Address.toU32_fromU32 (v : BitVec 32) : (fromU32 v).toU32 = v := by
  apply BitVec.eq_of_getElem_eq
  intro i hi
  simp only [fromU32, toU32]
  grind

theorem Ipv4Address.toU32_injective : Function.Injective toU32 :=
  Function.LeftInverse.injective fromU32_toU32

/-- `!((1u32 << (32 - len)) - 1)`, and zero for length zero. -/
def netmaskOf (len : ℕ) : BitVec 32 :=
  if len = 0 then 0 else ~~~((1 <<< (32 - len)) - 1)

theorem netmaskOf_eq {len : ℕ} (h : len ≤ 32) :
    netmaskOf len = BitVec.allOnes 32 <<< (32 - len) := by
  interval_cases len <;> rfl

def Ipv4Address.mask (ip : Ipv4Address) (len : ℕ) : Ipv4Address :=
  if len = 0 then ⟨0, 0, 0, 0⟩
  else if len ≥ 32 then ip
  else .fromU32 (ip.toU32 &&& netmaskOf len)

theorem Ipv4Address.toU32_mask (ip : Ipv4Address) {len : ℕ} (h : len ≤ 32) :
    (ip.mask len).toU32 = ip.toU32 &&& netmaskOf len := by
  unfold mask
  split_ifs with hzero hwhole
  · rw [hzero, show netmaskOf 0 = 0#32 from rfl, BitVec.and_zero]
    rfl
  · obtain rfl : len = 32 := by omega
    rw [show netmaskOf 32 = BitVec.allOnes 32 from rfl, BitVec.and_allOnes]
  · exact toU32_fromU32 _

theorem Ipv4Address.mask_eq_mask_iff {a b : Ipv4Address} {len : ℕ} (h : len ≤ 32) :
    a.mask len = b.mask len ↔ a.toU32 &&& netmaskOf len = b.toU32 &&& netmaskOf len := by
  rw [← toU32_mask a h, ← toU32_mask b h, toU32_injective.eq_iff]

theorem Ipv4Address.mask_mask (ip : Ipv4Address) (len : ℕ) :
    (ip.mask len).mask len = ip.mask len := by
  by_cases h : len ≤ 32
  · rw [mask_eq_mask_iff h, toU32_mask ip h, BitVec.and_assoc, BitVec.and_self]
  · have hmask : ∀ a : Ipv4Address, a.mask len = a := fun a => by
      rw [mask, if_neg (by omega), if_pos (by omega)]
    rw [hmask, hmask]

namespace Routing

def fnv1aExtend (hash : UInt64) (bytes : List UInt8) : UInt64 :=
  bytes.foldl (fun hash byte => (hash ^^^ byte.toUInt64) * 0x00000100000001b3) hash

def fnvOffsetBasis : UInt64 := 0xcbf29ce484222325

structure Ipv4FlowKey where
  source : Ipv4Address
  destination : Ipv4Address
  protocol : UInt8
  sourcePort : ℕ
  destinationPort : ℕ

def Ipv4FlowKey.stableHash (flow : Ipv4FlowKey) : UInt64 :=
  let hash := fnv1aExtend fnvOffsetBasis flow.source.octets
  let hash := fnv1aExtend hash flow.destination.octets
  let hash := fnv1aExtend hash [flow.protocol]
  let hash := fnv1aExtend hash (toBeBytes16 flow.sourcePort)
  fnv1aExtend hash (toBeBytes16 flow.destinationPort)

inductive RouteSource where
  | connected
  | ra
  | raRoute
  | static
  | bgp
  | ospf
  | rip
  deriving DecidableEq, Repr

def RouteSource.distance : RouteSource → ℕ
  | .connected => 0
  | .ra => 0
  | .static => 1
  | .raRoute => 10
  | .bgp => 20
  | .ospf => 110
  | .rip => 120

def RouteSource.asStr : RouteSource → String
  | .connected => "connected"
  | .ra => "ra"
  | .raRoute => "ra-route"
  | .static => "static"
  | .bgp => "bgp"
  | .ospf => "ospf"
  | .rip => "rip"

/-- The calls that change a table, for either address family. -/
inductive RouteCall (A : Type) where
  | addRouteFrom (destination : A) (len : ℕ) (gateway : Option A) (interface : String)
      (source : RouteSource)
  | addMultipathRouteFrom (destination : A) (len : ℕ) (gateway : Option A) (interface : String)
      (source : RouteSource)
  | removeRoute (destination : A) (len : ℕ) (source : RouteSource)
  | removeRouteVia (destination : A) (len : ℕ) (gateway : Option A) (interface : String)
      (source : RouteSource)
  | removeAllFrom (source : RouteSource)

/-- The first element that fits is overwritten, or the new one is pushed. -/
def replaceOrPush {α : Type} (p : α → Bool) (new : α) (l : List α) : List α :=
  match l.findIdx? p with
  | some i => l.set i new
  | none => l ++ [new]

structure RouteEntry where
  destination : Ipv4Address
  prefixLen : ℕ
  netmask : BitVec 32
  gateway : Option Ipv4Address
  interface : String
  source : RouteSource
  deriving DecidableEq, Repr

namespace RouteEntry

def withSource (destination : Ipv4Address) (len : ℕ) (gateway : Option Ipv4Address)
    (interface : String) (source : RouteSource) : RouteEntry :=
  let len := min len 32
  ⟨destination, len, netmaskOf len, gateway, interface, source⟩

def matchesAddr (e : RouteEntry) (ip : Ipv4Address) : Bool :=
  ip.toU32 &&& e.netmask = e.destination.toU32 &&& e.netmask

def distance (e : RouteEntry) : ℕ := e.source.distance

/-- The prefix an entry stands for. -/
def key (e : RouteEntry) : Ipv4Address × ℕ := (e.destination.mask e.prefixLen, e.prefixLen)

end RouteEntry

def resilientRouteScore (flowHash : UInt64) (route : RouteEntry) : UInt64 :=
  let hash := fnv1aExtend fnvOffsetBasis (toBeBytes32 (flowHash.toNat / 2 ^ 32) ++
    toBeBytes32 (flowHash.toNat % 2 ^ 32))
  let hash := fnv1aExtend hash (route.destination.mask route.prefixLen).octets
  let hash := fnv1aExtend hash [UInt8.ofNat route.prefixLen]
  let hash := match route.gateway with
    | some gateway => fnv1aExtend (fnv1aExtend hash [1]) gateway.octets
    | none => fnv1aExtend hash [0]
  let hash := fnv1aExtend hash route.interface.toUTF8.toList
  fnv1aExtend hash route.source.asStr.toUTF8.toList

/-- `Option::cmp`: `None` comes first. -/
def compareGateway : Option Ipv4Address → Option Ipv4Address → Ordering
  | none, none => .eq
  | none, some _ => .lt
  | some _, none => .gt
  | some a, some b => compare a.toU32.toNat b.toU32.toNat

def routeIdentityCmp (left right : RouteEntry) : Ordering :=
  (compare left.destination.toU32.toNat right.destination.toU32.toNat).then
    ((compare left.prefixLen right.prefixLen).then
      ((compareGateway left.gateway right.gateway).then
        ((compare left.interface right.interface).then
          (compare left.source.asStr right.source.asStr))))

structure RoutingTable where
  routes : List RouteEntry

namespace RoutingTable

def new : RoutingTable := ⟨[]⟩

def sort (t : RoutingTable) : RoutingTable :=
  ⟨Ranked.arrange RouteEntry.prefixLen RouteEntry.distance t.routes⟩

def addRouteFrom (t : RoutingTable) (destination : Ipv4Address) (len : ℕ)
    (gateway : Option Ipv4Address) (interface : String) (source : RouteSource) : RoutingTable :=
  let entry := RouteEntry.withSource destination len gateway interface source
  sort ⟨replaceOrPush (fun r => r.key = entry.key ∧ r.source = source) entry t.routes⟩

def addMultipathRouteFrom (t : RoutingTable) (destination : Ipv4Address) (len : ℕ)
    (gateway : Option Ipv4Address) (interface : String) (source : RouteSource) : RoutingTable :=
  let entry := RouteEntry.withSource destination len gateway interface source
  let duplicate := t.routes.any fun route =>
    route.key = entry.key ∧ route.gateway = entry.gateway ∧ route.interface = entry.interface ∧
      route.source = entry.source
  if duplicate then t else sort ⟨t.routes ++ [entry]⟩

def removeRoute (t : RoutingTable) (destination : Ipv4Address) (len : ℕ) (source : RouteSource) :
    RoutingTable :=
  let key := (destination.mask len, len)
  ⟨t.routes.filter fun r => ¬ (r.key = key ∧ r.source = source)⟩

def removeRouteVia (t : RoutingTable) (destination : Ipv4Address) (len : ℕ)
    (gateway : Option Ipv4Address) (interface : String) (source : RouteSource) : RoutingTable :=
  let key := (destination.mask len, min len 32)
  ⟨t.routes.filter fun r =>
    ¬ (r.key = key ∧ r.gateway = gateway ∧ r.interface = interface ∧ r.source = source)⟩

def removeAllFrom (t : RoutingTable) (source : RouteSource) : RoutingTable :=
  ⟨t.routes.filter fun r => r.source ≠ source⟩

def step (t : RoutingTable) : RouteCall Ipv4Address → RoutingTable
  | .addRouteFrom d len gw i s => t.addRouteFrom d len gw i s
  | .addMultipathRouteFrom d len gw i s => t.addMultipathRouteFrom d len gw i s
  | .removeRoute d len s => t.removeRoute d len s
  | .removeRouteVia d len gw i s => t.removeRouteVia d len gw i s
  | .removeAllFrom s => t.removeAllFrom s

def lookup (t : RoutingTable) (dst : Ipv4Address) : Option RouteEntry :=
  t.routes.find? fun r => r.matchesAddr dst

/-- The matching routes tied with `best` on prefix length and distance, in table order. -/
def candidates (t : RoutingTable) (dst : Ipv4Address) (best : RouteEntry) : List RouteEntry :=
  Ranked.tied RouteEntry.prefixLen RouteEntry.distance (fun r => r.matchesAddr dst) t.routes best

def lookupBestRoutes (t : RoutingTable) (dst : Ipv4Address) : List RouteEntry :=
  match t.lookup dst with
  | none => []
  | some best => t.candidates dst best

def lookupBestRouteByHash (t : RoutingTable) (dst : Ipv4Address) (flowHash : UInt64) :
    Option RouteEntry :=
  (t.lookup dst).bind fun best => Ranked.nth (t.candidates dst best) flowHash.toNat

def lookupBestRouteForFlow (t : RoutingTable) (flow : Ipv4FlowKey) : Option RouteEntry :=
  t.lookupBestRouteByHash flow.destination flow.stableHash

def lookupResilientRouteByHash (t : RoutingTable) (dst : Ipv4Address) (flowHash : UInt64) :
    Option RouteEntry :=
  Ranked.maxBy (fun left right =>
    (compare (resilientRouteScore flowHash left).toNat
        (resilientRouteScore flowHash right).toNat).then
      (routeIdentityCmp left right)) (t.lookupBestRoutes dst)

def lookupResilientRouteForFlow (t : RoutingTable) (flow : Ipv4FlowKey) : Option RouteEntry :=
  t.lookupResilientRouteByHash flow.destination flow.stableHash

def lookupResilientRouteForFragment (t : RoutingTable) (source destination : Ipv4Address)
    (protocol : UInt8) (identification : ℕ) : Option RouteEntry :=
  let baseHash := (⟨source, destination, protocol, 0, 0⟩ : Ipv4FlowKey).stableHash
  let fragmentHash := fnv1aExtend (fnv1aExtend baseHash "ipv4-fragment".toUTF8.toList)
    (toBeBytes16 identification)
  t.lookupResilientRouteByHash destination fragmentHash

end RoutingTable

end Routing

end ToyTcpip
