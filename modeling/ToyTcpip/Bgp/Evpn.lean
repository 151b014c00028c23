import ToyTcpip.Bgp.Parse
import ToyTcpip.Bgp.Rib
import ToyTcpip.Ethernet

/-! EVPN: NLRI from `evpn.rs`, Route Targets, paths, their decision process and their RIBs from
`bgp_evpn.rs`. -/
namespace ToyTcpip

namespace Bgp

open Checked (index slice)

/-! ### Route Targets -/

def bgpExtCommType2OctetAs : UInt8 := 0x00

def bgpExtCommTypeIpv4Addr : UInt8 := 0x01

def bgpExtCommTypeEvpn : UInt8 := 0x06

def bgpExtCommSubtypeRouteTarget : UInt8 := 0x02

def bgpExtCommSubtypeMacMobility : UInt8 := 0x00

inductive RouteTarget where
  | as2 (asn : UInt16) (value : UInt32)
  | ipv4 (ip : Ipv4Address) (value : UInt16)
  deriving DecidableEq, Repr

namespace RouteTarget

def fromBytes (raw : Vector UInt8 8) : Option RouteTarget :=
  if raw[1] ≠ bgpExtCommSubtypeRouteTarget then none
  else if raw[0] = bgpExtCommType2OctetAs then
    some (.as2 (UInt16.ofNat (beWord raw[2] raw[3])) (beLong raw[4] raw[5] raw[6] raw[7]))
  else if raw[0] = bgpExtCommTypeIpv4Addr then
    some (.ipv4 ⟨raw[2], raw[3], raw[4], raw[5]⟩ (UInt16.ofNat (beWord raw[6] raw[7])))
  else none

def toBytes : RouteTarget → Vector UInt8 8
  | .as2 asn value =>
    #v[bgpExtCommType2OctetAs, bgpExtCommSubtypeRouteTarget, UInt8.ofNat (asn.toNat / 256),
      UInt8.ofNat asn.toNat, UInt8.ofNat (value.toNat / 2 ^ 24), UInt8.ofNat (value.toNat / 2 ^ 16),
      UInt8.ofNat (value.toNat / 2 ^ 8), UInt8.ofNat value.toNat]
  | .ipv4 ip value =>
    #v[bgpExtCommTypeIpv4Addr, bgpExtCommSubtypeRouteTarget, ip.a, ip.b, ip.c, ip.d,
      UInt8.ofNat (value.toNat / 256), UInt8.ofNat value.toNat]

/-- Variant first, then fields. -/
def rank : RouteTarget → List ℕ
  | .as2 asn value => [0, asn.toNat, value.toNat]
  | .ipv4 ip value => [1, ip.toU32.toNat, value.toNat]

theorem rank_injective : Function.Injective rank := by
  intro a b h
  cases a <;> cases b <;> simp_all [rank, UInt16.toNat_inj, UInt32.toNat_inj]
  rename_i ip _ ip' _
  exact Ipv4Address.toU32_toNat_injective h.1

end RouteTarget

instance : Ord RouteTarget := ⟨compareOn RouteTarget.rank⟩

instance : Std.TransOrd RouteTarget := inferInstanceAs (Std.TransCmp (compareOn RouteTarget.rank))

instance : Std.LawfulEqOrd RouteTarget := Std.LawfulEqOrd.of_injective RouteTarget.rank_injective

def routeTargetsFromCommunities (raw : List (Vector UInt8 8)) : List RouteTarget :=
  raw.filterMap RouteTarget.fromBytes

/-- The sequence number of a MAC Mobility community. -/
def macMobilitySequence (raw : Vector UInt8 8) : Option UInt32 :=
  if raw[0] = bgpExtCommTypeEvpn ∧ raw[1] = bgpExtCommSubtypeMacMobility then
    some (beLong raw[4] raw[5] raw[6] raw[7])
  else none

def macMobilityFromCommunities (raw : List (Vector UInt8 8)) : Option UInt32 :=
  raw.findSome? macMobilitySequence

/-- Neither a Route Target nor MAC Mobility: kept verbatim. -/
def otherExtCommunities (raw : List (Vector UInt8 8)) : List (Vector UInt8 8) :=
  raw.filter fun c => (RouteTarget.fromBytes c).isNone && (macMobilitySequence c).isNone

/-! ### NLRI -/

structure RouteDistinguisher where
  admin : UInt32
  assigned : UInt16
  deriving DecidableEq, Repr

def RouteDistinguisher.serialize (rd : RouteDistinguisher) : List UInt8 :=
  [0x00, 0x01] ++ toBeBytes32 rd.admin.toNat ++ toBeBytes16 rd.assigned.toNat

/-- Route type 2. -/
structure EvpnMacIpAdv where
  rd : RouteDistinguisher
  esi : Vector UInt8 10
  ethTag : UInt32
  mac : MacAddress
  ip : Option Ipv4Address
  vni : UInt32
  deriving DecidableEq, Repr

/-- Route type 3. -/
structure EvpnInclusiveMulticast where
  rd : RouteDistinguisher
  ethTag : UInt32
  originatingRouterIp : Ipv4Address
  deriving DecidableEq, Repr

inductive EvpnNlri where
  | macIpAdv (m : EvpnMacIpAdv)
  | inclusiveMulticast (im : EvpnInclusiveMulticast)
  deriving DecidableEq, Repr

inductive EvpnError where
  | packetTooShort (len : ℕ)
  | invalidRouteType (t : UInt8)
  | invalidMacLength (len : UInt8)
  | invalidIpLength (len : UInt8)
  deriving DecidableEq, Repr

def evpnTypeMacIpAdv : UInt8 := 2

def evpnTypeInclusiveMulticast : UInt8 := 3

namespace EvpnNlri

def routeType : EvpnNlri → UInt8
  | .macIpAdv _ => evpnTypeMacIpAdv
  | .inclusiveMulticast _ => evpnTypeInclusiveMulticast

def body : EvpnNlri → List UInt8
  | .macIpAdv m =>
    m.rd.serialize ++ m.esi.toList ++ toBeBytes32 m.ethTag.toNat ++ [48] ++ m.mac.octets ++
      (match m.ip with
        | some ip => 32 :: ip.octets
        | none => [0]) ++
      (toBeBytes32 (m.vni.toNat % 2 ^ 24)).drop 1
  | .inclusiveMulticast im =>
    im.rd.serialize ++ toBeBytes32 im.ethTag.toNat ++ [32] ++ im.originatingRouterIp.octets

def serialize (n : EvpnNlri) : List UInt8 :=
  [n.routeType, UInt8.ofNat n.body.length] ++ n.body

end EvpnNlri

abbrev EvpnParsed (α : Type) : Type := Checked EvpnError α

def readLongAt (data : List UInt8) (i : ℕ) : EvpnParsed UInt32 := do
  let a ← index data i
  let b ← index data (i + 1)
  let c ← index data (i + 2)
  let d ← index data (i + 3)
  .ok (beLong a b c d)

def readAddressAt (data : List UInt8) (i : ℕ) : EvpnParsed Ipv4Address := do
  let a ← index data i
  let b ← index data (i + 1)
  let c ← index data (i + 2)
  let d ← index data (i + 3)
  .ok ⟨a, b, c, d⟩

def RouteDistinguisher.parse (data : List UInt8) : EvpnParsed RouteDistinguisher :=
  if data.length < 8 then .error (.packetTooShort data.length)
  else do
    let admin ← readLongAt data 2
    let hi ← index data 6
    let lo ← index data 7
    .ok ⟨admin, UInt16.ofNat (beWord hi lo)⟩

/-- RD(8) ESI(10) EthTag(4) MacLen(1) MAC(6) IpLen(1), before the IP address and the label. -/
def macIpFixedHead : ℕ := 8 + 10 + 4 + 1 + 6 + 1

/-- The octets an IP address length in bits stands for. -/
def ipOctetsOf (bits : UInt8) : EvpnParsed ℕ :=
  if bits = 0 then .ok 0
  else if bits = 32 then .ok 4
  else if bits = 128 then .ok 16
  else .error (.invalidIpLength bits)

def parseMacIpAdv (body : List UInt8) : EvpnParsed EvpnNlri :=
  if body.length < macIpFixedHead + 3 then .error (.packetTooShort body.length)
  else do
    let rdBytes ← slice body 0 8
    let rd ← RouteDistinguisher.parse rdBytes
    let esi ← slice body 8 18
    let ethTag ← readLongAt body 18
    let macLen ← index body 22
    if macLen ≠ 48 then .error (.invalidMacLength macLen)
    else
      let mac ← slice body 23 29
      let ipLen ← index body 29
      let ipOctets ← ipOctetsOf ipLen
      let ipEnd := macIpFixedHead + ipOctets
      if body.length < ipEnd + 3 then .error (.packetTooShort body.length)
      else
        -- an IPv6 host address is dropped and the MAC kept
        let ip ← if ipOctets = 4 then
            (readAddressAt body macIpFixedHead).bind fun ip => .ok (some ip)
          else .ok none
        let a ← index body ipEnd
        let b ← index body (ipEnd + 1)
        let c ← index body (ipEnd + 2)
        .ok (.macIpAdv ⟨rd, Vector.ofFn fun i : Fin 10 => esi.getD i 0, ethTag,
          ⟨Vector.ofFn fun i : Fin 6 => mac.getD i 0⟩, ip, beLong 0 a b c⟩)

def parseInclusiveMulticast (body : List UInt8) : EvpnParsed EvpnNlri :=
  if body.length < 8 + 4 + 1 + 4 then .error (.packetTooShort body.length)
  else do
    let rdBytes ← slice body 0 8
    let rd ← RouteDistinguisher.parse rdBytes
    let ethTag ← readLongAt body 8
    let ipLen ← index body 12
    if ipLen = 32 ∨ ipLen = 128 then
      let ipOctets := if ipLen = 32 then 4 else 16
      if body.length < 13 + ipOctets then .error (.packetTooShort body.length)
      else if ipOctets ≠ 4 then .error (.invalidIpLength ipLen)
      else
        let ip ← readAddressAt body 13
        .ok (.inclusiveMulticast ⟨rd, ethTag, ip⟩)
    else .error (.invalidIpLength ipLen)

def EvpnNlri.parse (data : List UInt8) : EvpnParsed EvpnNlri :=
  if data.length < 2 then .error (.packetTooShort data.length)
  else do
    let routeType ← index data 0
    let len ← index data 1
    if data.length < 2 + len.toNat then .error (.packetTooShort data.length)
    else
      let body ← slice data 2 (2 + len.toNat)
      if routeType = evpnTypeMacIpAdv then parseMacIpAdv body
      else if routeType = evpnTypeInclusiveMulticast then parseInclusiveMulticast body
      else .error (.invalidRouteType routeType)

def maxEvpnNlriPerUpdate : ℕ := 512

def maxEvpnRoutes : ℕ := 4096

def encodeEvpnNlriList (nlri : List EvpnNlri) : List UInt8 := nlri.flatMap EvpnNlri.serialize

def EvpnError.describe : EvpnError → String
  | .packetTooShort l => s!"EVPN NLRI too short ({l} bytes)"
  | .invalidRouteType t => s!"Unknown EVPN Route Type: {t}"
  | .invalidMacLength l => s!"EVPN MAC Address Length is {l} bits, must be 48"
  | .invalidIpLength l => s!"EVPN IP Address Length is {l} bits, must be 0, 32 or 128"

/-- The walk over the NLRI of an MP attribute, with the number of entries read so far. The declared
lengths drive it; an entry of an unknown route type is skipped. -/
def decodeEvpnNlriFrom (found : ℕ) : List UInt8 → Parsed (List EvpnNlri)
  | [] => .ok []
  | [_] => .error (.update bgpSubInvalidNetworkField "truncated EVPN NLRI header")
  | routeType :: len :: rest =>
    let stop := 2 + len.toNat
    let data := routeType :: len :: rest
    if stop > data.length then
      let remain := data.length - 2
      .error (.update bgpSubInvalidNetworkField
        s!"EVPN route type {routeType} claims {len} bytes but only {remain} remain")
    else if len = 0 then
      .error (.update bgpSubInvalidNetworkField
        s!"EVPN route type {routeType} has a zero-length body")
    else if found ≥ maxEvpnNlriPerUpdate then
      .error (.update bgpSubInvalidNetworkField
        s!"more than {maxEvpnNlriPerUpdate} EVPN NLRI in one UPDATE")
    else
      (slice data 0 stop).bind fun entry =>
        match EvpnNlri.parse entry with
        | .ok n =>
          (decodeEvpnNlriFrom (found + 1) (rest.drop len.toNat)).bind fun out => .ok (n :: out)
        | .error (.invalidRouteType _) => decodeEvpnNlriFrom found (rest.drop len.toNat)
        | .error e =>
          let reason := e.describe
          .error (.update bgpSubInvalidNetworkField
            s!"malformed EVPN route type {routeType}: {reason}")
        | .panic => .panic
termination_by data => data.length
decreasing_by all_goals simp; omega

def decodeEvpnNlriList (data : List UInt8) : Parsed (List EvpnNlri) := decodeEvpnNlriFrom 0 data

/-! ### Routes and paths -/

/-- What makes two advertisements the same route. The VNI is not part of it. -/
inductive EvpnRouteKey where
  | macIp (rd : RouteDistinguisher) (ethTag : UInt32) (mac : MacAddress) (ip : Option Ipv4Address)
  | imet (rd : RouteDistinguisher) (ethTag : UInt32) (originator : Ipv4Address)
  deriving DecidableEq, Repr

namespace EvpnRouteKey

def fromNlri : EvpnNlri → EvpnRouteKey
  | .macIpAdv m => .macIp m.rd m.ethTag m.mac m.ip
  | .inclusiveMulticast im => .imet im.rd im.ethTag im.originatingRouterIp

def rank : EvpnRouteKey → List ℕ
  | .macIp rd ethTag mac ip =>
    [0, rd.admin.toNat, rd.assigned.toNat, ethTag.toNat] ++ mac.octets.map UInt8.toNat ++
      (match ip with
        | none => [0]
        | some ip => [1, ip.toU32.toNat])
  | .imet rd ethTag originator =>
    [1, rd.admin.toNat, rd.assigned.toNat, ethTag.toNat, originator.toU32.toNat]

theorem rank_injective : Function.Injective rank := by
  intro a b h
  cases a with
  | macIp rd tag mac ip =>
    cases b with
    | imet => simp [rank] at h
    | macIp rd' tag' mac' ip' =>
      have hlen : ∀ m : MacAddress, (m.octets.map UInt8.toNat).length = 6 := fun m => by
        simp [MacAddress.octets]
      simp only [rank, List.cons_append, List.nil_append, List.cons.injEq, true_and] at h
      obtain ⟨hadmin, hassigned, htag, hrest⟩ := h
      obtain ⟨hmac, hip⟩ := List.append_inj hrest (by rw [hlen, hlen])
      have hmac := List.map_injective_iff.mpr (fun _ _ h => UInt8.toNat_inj.mp h) hmac
      have hip : ip = ip' := by
        cases ip <;> cases ip' <;> simp_all
        exact Ipv4Address.toU32_toNat_injective hip
      cases rd
      cases rd'
      cases mac
      cases mac'
      simp_all [MacAddress.octets, UInt32.toNat_inj, UInt16.toNat_inj, Vector.toList_inj]
  | imet rd tag ip =>
    cases b with
    | macIp => simp [rank] at h
    | imet rd' tag' ip' =>
      cases rd
      cases rd'
      simp only [rank, List.cons.injEq, true_and, and_true] at h
      have hip := Ipv4Address.toU32_toNat_injective h.2.2.2
      simp_all [UInt32.toNat_inj, UInt16.toNat_inj]

end EvpnRouteKey

instance : Ord EvpnRouteKey := ⟨compareOn EvpnRouteKey.rank⟩

instance : Std.TransOrd EvpnRouteKey := inferInstanceAs (Std.TransCmp (compareOn EvpnRouteKey.rank))

instance : Std.LawfulEqOrd EvpnRouteKey := Std.LawfulEqOrd.of_injective EvpnRouteKey.rank_injective

/-- One EVPN route as this speaker originates or re-advertises it. -/
structure EvpnRoute where
  nlri : EvpnNlri
  nextHop : Ipv4Address
  routeTargets : List RouteTarget
  mobilitySeq : Option UInt32
  otherCommunities : List (Vector UInt8 8)
  deriving DecidableEq, Repr

namespace EvpnRoute

def key (r : EvpnRoute) : EvpnRouteKey := .fromNlri r.nlri

/-- A MAC Mobility community that is not sticky. -/
def mobilityBytes (seq : UInt32) : Vector UInt8 8 :=
  #v[bgpExtCommTypeEvpn, bgpExtCommSubtypeMacMobility, 0, 0, UInt8.ofNat (seq.toNat / 2 ^ 24),
    UInt8.ofNat (seq.toNat / 2 ^ 16), UInt8.ofNat (seq.toNat / 2 ^ 8), UInt8.ofNat seq.toNat]

def extCommunities (r : EvpnRoute) : List (Vector UInt8 8) :=
  r.routeTargets.map RouteTarget.toBytes ++
    (match r.mobilitySeq with
      | some seq => [mobilityBytes seq]
      | none => []) ++ r.otherCommunities

def matchesImport (r : EvpnRoute) (imports : Std.TreeSet RouteTarget) : Bool :=
  r.routeTargets.any fun rt => imports.contains rt

end EvpnRoute

/-- One EVPN route as received from a peer, or originated here. -/
structure EvpnPath where
  route : EvpnRoute
  peerAddr : Ipv4Address
  peerAs : UInt32
  peerRouterId : Ipv4Address
  origin : BgpOrigin
  asPath : AsPath
  localPref : UInt32
  originatorId : Option Ipv4Address
  clusterList : List Ipv4Address
  fromClient : Bool
  importable : Bool
  receivedAtMs : ℕ
  isLocal : Bool
  deriving DecidableEq, Repr

namespace EvpnPath

def «local» (route : EvpnRoute) (routerId : Ipv4Address) (nowMs : ℕ) : EvpnPath :=
  { route, peerAddr := .unspecified, peerAs := 0, peerRouterId := routerId, origin := .igp,
    asPath := .empty, localPref := bgpDefaultLocalPref, originatorId := none, clusterList := [],
    fromClient := false, importable := true, receivedAtMs := nowMs, isLocal := true }

def key (p : EvpnPath) : EvpnRouteKey := p.route.key

def sameRouteAs (a b : EvpnPath) : Bool := { a with receivedAtMs := b.receivedAtMs } = b

end EvpnPath

/-- The MAC Mobility sequence number comes before every ordinary attribute. -/
def compareEvpnPaths (a b : EvpnPath) : Ordering :=
  (compare (b.route.mobilitySeq.getD 0).toNat (a.route.mobilitySeq.getD 0).toNat).then <|
  (trueFirst a.isLocal b.isLocal).then <|
  (compare b.localPref.toNat a.localPref.toNat).then <|
  (compare a.asPath.length b.asPath.length).then <|
  (compare a.origin.toU8.toNat b.origin.toU8.toNat).then <|
  (compare a.clusterList.length b.clusterList.length).then <|
  (compare a.peerRouterId.toU32.toNat b.peerRouterId.toU32.toNat).then <|
  compare a.peerAddr.toU32.toNat b.peerAddr.toU32.toNat

def selectBestEvpn : List EvpnPath → Option EvpnPath
  | [] => none
  | first :: rest =>
    some (rest.foldl (fun best next => if compareEvpnPaths next best = .lt then
      next else best) first)

abbrev EvpnAdjRibIn : Type := Nested Ipv4Address EvpnRouteKey EvpnPath

abbrev EvpnLocRib : Type := Std.TreeMap EvpnRouteKey EvpnPath

/-- One EVPN route as advertised to one peer, with the attributes that went with it. -/
structure EvpnAdvertisedRoute where
  route : EvpnRoute
  origin : BgpOrigin
  asPath : AsPath
  localPref : Option UInt32
  originatorId : Option Ipv4Address
  clusterList : List Ipv4Address
  deriving DecidableEq, Repr

def EvpnAdvertisedRoute.key (a : EvpnAdvertisedRoute) : EvpnRouteKey := a.route.key

abbrev EvpnAdjRibOut : Type := Nested Ipv4Address EvpnRouteKey EvpnAdvertisedRoute

end Bgp

end ToyTcpip
