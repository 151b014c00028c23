import ToyTcpip.Bgp.Decision
import ToyTcpip.Bgp.Message
import ToyTcpip.Lib.Nested

/-! Routing information bases and route policy of `bgp_rib.rs`. -/
namespace ToyTcpip

namespace Ipv4Address

instance : Ord Ipv4Address := ⟨compareOn fun ip => ip.toU32.toNat⟩

theorem toU32_toNat_injective : Function.Injective fun ip : Ipv4Address => ip.toU32.toNat :=
  fun _ _ h => toU32_injective (BitVec.eq_of_toNat_eq h)

instance : Std.TransOrd Ipv4Address :=
  inferInstanceAs (Std.TransCmp (compareOn fun ip : Ipv4Address => ip.toU32.toNat))

instance : Std.LawfulEqOrd Ipv4Address := Std.LawfulEqOrd.of_injective toU32_toNat_injective

def isLoopback (ip : Ipv4Address) : Bool := ip.a = 127

def isMulticast (ip : Ipv4Address) : Bool := 224 ≤ ip.a ∧ ip.a ≤ 239

def isBroadcast (ip : Ipv4Address) : Bool := ip = ⟨255, 255, 255, 255⟩

def isUnspecified (ip : Ipv4Address) : Bool := ip = unspecified

end Ipv4Address

namespace Bgp

/-- Address first, then length. -/
def Ipv4Prefix.rank (p : Ipv4Prefix) : List ℕ := [p.address.toU32.toNat, p.length.toNat]

theorem Ipv4Prefix.rank_injective : Function.Injective rank := by
  intro p q h
  cases p
  cases q
  simp only [rank, List.cons.injEq, and_true] at h
  rw [Ipv4Prefix.mk.injEq]
  exact ⟨Ipv4Address.toU32_toNat_injective h.1, UInt8.toNat_inj.mp h.2⟩

instance : Ord Ipv4Prefix := ⟨compareOn Ipv4Prefix.rank⟩

instance : Std.TransOrd Ipv4Prefix := inferInstanceAs (Std.TransCmp (compareOn Ipv4Prefix.rank))

instance : Std.LawfulEqOrd Ipv4Prefix := Std.LawfulEqOrd.of_injective Ipv4Prefix.rank_injective

def AfiSafi.rank (f : AfiSafi) : List ℕ := [f.afi.toNat, f.safi.toNat]

theorem AfiSafi.rank_injective : Function.Injective rank := by
  intro f g h
  cases f
  cases g
  simp only [rank, List.cons.injEq, and_true] at h
  rw [AfiSafi.mk.injEq]
  exact ⟨UInt16.toNat_inj.mp h.1, UInt8.toNat_inj.mp h.2⟩

instance : Ord AfiSafi := ⟨compareOn AfiSafi.rank⟩

instance : Std.TransOrd AfiSafi := inferInstanceAs (Std.TransCmp (compareOn AfiSafi.rank))

instance : Std.LawfulEqOrd AfiSafi := Std.LawfulEqOrd.of_injective AfiSafi.rank_injective

namespace BgpPath

/-- A path this speaker originates itself. -/
def «local» (pfx : Ipv4Prefix) (nextHop routerId : Ipv4Address) : BgpPath :=
  { pfx, source := .local, peerAddr := .unspecified, peerAs := 0, peerRouterId := routerId,
    origin := .igp, asPath := .empty, nextHop, med := none, localPref := bgpDefaultLocalPref,
    atomicAggregate := false, originatorId := none, clusterList := [], fromClient := false,
    receivedAtMs := 0 }

/-- Everything but the time of receipt, which is a diagnostic. -/
def sameRouteAs (a b : BgpPath) : Bool := { a with receivedAtMs := b.receivedAtMs } = b

end BgpPath

/-- The best path per prefix. -/
abbrev LocRib : Type := Std.TreeMap Ipv4Prefix BgpPath

/-- One route as advertised to one peer. -/
structure AdvertisedRoute where
  origin : BgpOrigin
  asPath : AsPath
  nextHop : Ipv4Address
  med : Option UInt32
  localPref : Option UInt32
  originatorId : Option Ipv4Address
  clusterList : List Ipv4Address
  deriving DecidableEq, Repr

/-- What this speaker has advertised to each peer. -/
abbrev AdjRibOut : Type := Nested Ipv4Address Ipv4Prefix AdvertisedRoute

inductive PolicyAction where
  | permit
  | deny
  deriving DecidableEq, Repr

inductive PrefixMatch where
  | any
  | exact (p : Ipv4Prefix)
  | orLonger (p : Ipv4Prefix)
  deriving DecidableEq, Repr

def PrefixMatch.matches (m : PrefixMatch) (pfx : Ipv4Prefix) : Bool :=
  match m with
  | .any => true
  | .exact p => p = pfx
  | .orLonger p => p.length ≤ pfx.length && p.contains pfx.address

structure PolicyRule where
  seq : UInt32
  matchPrefix : PrefixMatch
  action : PolicyAction
  setLocalPref : Option UInt32
  setMed : Option UInt32
  deriving DecidableEq, Repr

inductive PolicyOutcome where
  | denied
  | permitted (setLocalPref setMed : Option UInt32)
  deriving DecidableEq, Repr

structure RoutePolicy where
  rules : List PolicyRule
  defaultAction : PolicyAction
  deriving DecidableEq, Repr

namespace RoutePolicy

def new : RoutePolicy := ⟨[], .permit⟩

/-- The first matching rule decides, else the default action. -/
def apply (p : RoutePolicy) (pfx : Ipv4Prefix) : PolicyOutcome :=
  match p.rules.find? fun rule => rule.matchPrefix.matches pfx with
  | some rule =>
    match rule.action with
    | .deny => .denied
    | .permit => .permitted rule.setLocalPref rule.setMed
  | none =>
    match p.defaultAction with
    | .deny => .denied
    | .permit => .permitted none none

end RoutePolicy

end Bgp

end ToyTcpip
