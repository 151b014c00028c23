import ToyTcpip.Bgp.Parse
import ToyTcpip.Bgp.Rib
import ToyTcpip.Ipv6Packet

/-! IPv6 Unicast: prefixes, paths, their decision process and their RIBs, from `bgp_ipv6.rs`. -/
namespace ToyTcpip

namespace Ipv6Address

/-- The first sixteen of some octets, or zeros in their place. -/
def ofOctets (octets : List UInt8) : Ipv6Address := ⟨Vector.ofFn fun i : Fin 16 => octets.getD i 0⟩

theorem ofOctets_octets (ip : Ipv6Address) : ofOctets ip.octets = ip := by
  cases ip with
  | mk bytes =>
    simp only [ofOctets, octets, mk.injEq]
    ext i hi
    simp [List.getD_eq_getElem?_getD]

theorem octets_injective : Function.Injective octets := fun a b h => by
  rw [← ofOctets_octets a, h, ofOctets_octets]

end Ipv6Address

namespace Bgp

/-- Host bits are always cleared. -/
structure Ipv6Prefix where
  address : Ipv6Address
  length : UInt8
  length_le : length.toNat ≤ 128
  cleared : address.mask length.toNat = address
  deriving DecidableEq, Repr

namespace Ipv6Prefix

theorem min_toNat_le (length : UInt8) : (min length 128).toNat ≤ 128 := by
  have hmin : min length 128 = if length ≤ 128 then length else 128 := rfl
  rw [hmin]
  split
  · rename_i hle
    exact UInt8.le_iff_toNat_le.mp hle
  · decide

def new (address : Ipv6Address) (length : UInt8) : Ipv6Prefix :=
  ⟨address.mask (min length 128).toNat, min length 128, min_toNat_le length,
    Ipv6Address.mask_mask _ _⟩

def contains (p : Ipv6Prefix) (ip : Ipv6Address) : Bool := ip.mask p.length.toNat = p.address

def encode (p : Ipv6Prefix) : List UInt8 :=
  p.length :: p.address.octets.take (octetsFor p.length)

/-- Decodes an IPv6 Unicast NLRI list. -/
def decodeList : List UInt8 → Parsed (List Ipv6Prefix)
  | [] => .ok []
  | bits :: rest =>
    if bits > 128 then
      .error (.update bgpSubInvalidNetworkField s!"IPv6 prefix length {bits} exceeds 128 bits")
    else
      let octets := octetsFor bits
      if 1 + octets > (bits :: rest).length then
        .error (.update bgpSubInvalidNetworkField "truncated IPv6 prefix in MP-BGP NLRI list")
      else
        (Checked.slice (bits :: rest) 1 (1 + octets)).bind fun addr =>
          (decodeList (rest.drop octets)).bind fun out =>
            .ok (new (.ofOctets addr) bits :: out)
termination_by data => data.length
decreasing_by simp

/-- Octets first, then length. -/
def rank (p : Ipv6Prefix) : List ℕ := p.address.octets.map UInt8.toNat ++ [p.length.toNat]

theorem rank_injective : Function.Injective rank := by
  intro p q h
  obtain ⟨haddr, hlen⟩ := List.append_inj' h rfl
  have haddr := Ipv6Address.octets_injective (List.map_injective_iff.mpr
    (fun _ _ h => UInt8.toNat_inj.mp h) haddr)
  cases p
  cases q
  simp only [List.cons.injEq, and_true] at hlen
  simp_all [UInt8.toNat_inj]

end Ipv6Prefix

instance : Ord Ipv6Prefix := ⟨compareOn Ipv6Prefix.rank⟩

instance : Std.TransOrd Ipv6Prefix := inferInstanceAs (Std.TransCmp (compareOn Ipv6Prefix.rank))

instance : Std.LawfulEqOrd Ipv6Prefix := Std.LawfulEqOrd.of_injective Ipv6Prefix.rank_injective

def encodeIpv6NlriList (prefixes : List Ipv6Prefix) : List UInt8 :=
  prefixes.flatMap Ipv6Prefix.encode

/-- One path to an IPv6 prefix. The neighbour is still named by the IPv4 address of its session. -/
structure Ipv6Path where
  pfx : Ipv6Prefix
  source : PathSource
  peerAddr : Ipv4Address
  peerAs : UInt32
  peerRouterId : Ipv4Address
  origin : BgpOrigin
  asPath : AsPath
  nextHop : Ipv6Address
  med : Option UInt32
  localPref : UInt32
  atomicAggregate : Bool
  originatorId : Option Ipv4Address
  clusterList : List Ipv4Address
  fromClient : Bool
  receivedAtMs : ℕ
  deriving DecidableEq, Repr

namespace Ipv6Path

def «local» (pfx : Ipv6Prefix) (nextHop : Ipv6Address) (routerId : Ipv4Address) : Ipv6Path :=
  { pfx, source := .local, peerAddr := .unspecified, peerAs := 0, peerRouterId := routerId,
    origin := .igp, asPath := .empty, nextHop, med := none, localPref := bgpDefaultLocalPref,
    atomicAggregate := false, originatorId := none, clusterList := [], fromClient := false,
    receivedAtMs := 0 }

def isLocal (p : Ipv6Path) : Bool := p.source = .local

def isEbgp (p : Ipv6Path) : Bool := p.source = .ebgp

def sameRouteAs (a b : Ipv6Path) : Bool := { a with receivedAtMs := b.receivedAtMs } = b

end Ipv6Path

def compareIpv6Paths (a b : Ipv6Path) : Ordering :=
  (trueFirst a.isLocal b.isLocal).then <|
  (compare b.localPref.toNat a.localPref.toNat).then <|
  (compare a.asPath.length b.asPath.length).then <|
  (compare a.origin.toU8.toNat b.origin.toU8.toNat).then <|
  (if a.asPath.firstAs.isSome ∧ a.asPath.firstAs = b.asPath.firstAs then
    compare (a.med.getD 0).toNat (b.med.getD 0).toNat else .eq).then <|
  (trueFirst a.isEbgp b.isEbgp).then <|
  (compare a.clusterList.length b.clusterList.length).then <|
  (compare a.peerRouterId.toU32.toNat b.peerRouterId.toU32.toNat).then <|
  compare a.peerAddr.toU32.toNat b.peerAddr.toU32.toNat

def selectBestIpv6 : List Ipv6Path → Option Ipv6Path
  | [] => none
  | first :: rest =>
    some (rest.foldl (fun best next => if compareIpv6Paths next best = .lt then
      next else best) first)

abbrev Ipv6LocRib : Type := Std.TreeMap Ipv6Prefix Ipv6Path

structure Ipv6AdvertisedRoute where
  origin : BgpOrigin
  asPath : AsPath
  nextHop : Ipv6Address
  med : Option UInt32
  localPref : Option UInt32
  originatorId : Option Ipv4Address
  clusterList : List Ipv4Address
  deriving DecidableEq, Repr

abbrev Ipv6AdjRibOut : Type := Nested Ipv4Address Ipv6Prefix Ipv6AdvertisedRoute

end Bgp

end ToyTcpip
