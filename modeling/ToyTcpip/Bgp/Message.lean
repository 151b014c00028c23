import ToyTcpip.Bgp.AsPath
import ToyTcpip.Lib.Chunks

/-! BGP messages and their encoders: the strict wire layer of `bgp.rs` and `bgp_mp.rs`. -/
namespace ToyTcpip

def Ipv4Address.unspecified : Ipv4Address := ⟨0, 0, 0, 0⟩

namespace Bgp

def bgpHeaderLen : ℕ := 19

def bgpMaxMessageLen : ℕ := 4096

def bgpMarker : List UInt8 := List.replicate 16 0xFF

@[match_pattern] def bgpMsgOpen : UInt8 := 1

@[match_pattern] def bgpMsgUpdate : UInt8 := 2

@[match_pattern] def bgpMsgNotification : UInt8 := 3

@[match_pattern] def bgpMsgKeepalive : UInt8 := 4

@[match_pattern] def bgpMsgRouteRefresh : UInt8 := 5

@[match_pattern] def bgpAttrOrigin : UInt8 := 1

@[match_pattern] def bgpAttrAsPath : UInt8 := 2

@[match_pattern] def bgpAttrNextHop : UInt8 := 3

@[match_pattern] def bgpAttrMed : UInt8 := 4

@[match_pattern] def bgpAttrLocalPref : UInt8 := 5

@[match_pattern] def bgpAttrAtomicAggregate : UInt8 := 6

@[match_pattern] def bgpAttrOriginatorId : UInt8 := 9

@[match_pattern] def bgpAttrClusterList : UInt8 := 10

@[match_pattern] def bgpAttrMpReachNlri : UInt8 := 14

@[match_pattern] def bgpAttrMpUnreachNlri : UInt8 := 15

@[match_pattern] def bgpAttrExtCommunities : UInt8 := 16

@[match_pattern] def bgpAttrAs4Path : UInt8 := 17

def maxClusterListLen : ℕ := 32

def maxMpNlriBytes : ℕ := 4096

def bgpAttrFlagOptional : UInt8 := 0x80

def bgpAttrFlagTransitive : UInt8 := 0x40

def bgpAttrFlagExtLen : UInt8 := 0x10

@[match_pattern] def bgpAsSet : UInt8 := 1

@[match_pattern] def bgpAsSequence : UInt8 := 2

/-- `u32::from_be_bytes`. -/
def beLong (a b c d : UInt8) : UInt32 :=
  UInt32.ofNat (a.toNat * 2 ^ 24 + b.toNat * 2 ^ 16 + c.toNat * 2 ^ 8 + d.toNat)

/-- `div_ceil(8)`. -/
def octetsFor (bits : UInt8) : ℕ := (bits.toNat + 7) / 8

/-- The slice of the address is in range for a length of at most 32. -/
def Ipv4Prefix.encode (p : Ipv4Prefix) : List UInt8 :=
  p.length :: p.address.octets.take (octetsFor p.length)

def AsPathSegmentKind.code : AsPathSegmentKind → UInt8
  | .set => bgpAsSet
  | .sequence => bgpAsSequence

/-- `u16::try_from(asn).unwrap_or(AS_TRANS)`. -/
def narrowAsn (asn : UInt32) : UInt32 := if asn.toNat ≤ 65535 then asn else asTrans

def encodeAsn (fourOctet : Bool) (asn : UInt32) : List UInt8 :=
  if fourOctet then toBeBytes32 asn.toNat else toBeBytes16 (narrowAsn asn).toNat

def AsPath.encodeWidth (p : AsPath) (fourOctet : Bool) : List UInt8 :=
  p.segments.flatMap fun seg =>
    (Chunks.chunks asPathMaxSegmentAsns seg.asns).flatMap fun chunk =>
      [seg.kind.code, UInt8.ofNat chunk.length] ++ chunk.flatMap (encodeAsn fourOctet)

structure AfiSafi where
  afi : UInt16
  safi : UInt8
  deriving DecidableEq, Repr

def AfiSafi.ipv4Unicast : AfiSafi := ⟨1, 1⟩

def AfiSafi.ipv6Unicast : AfiSafi := ⟨2, 1⟩

def AfiSafi.l2vpnEvpn : AfiSafi := ⟨25, 70⟩

/-- The next hop and the NLRI stay bytes: their meaning belongs to the family. -/
structure MpReachNlri where
  afi : UInt16
  safi : UInt8
  nextHop : List UInt8
  nlri : List UInt8
  deriving DecidableEq, Repr

def MpReachNlri.encodeValue (mp : MpReachNlri) : List UInt8 :=
  toBeBytes16 mp.afi.toNat ++ [mp.safi, UInt8.ofNat mp.nextHop.length] ++ mp.nextHop ++
    [0] ++ mp.nlri

structure MpUnreachNlri where
  afi : UInt16
  safi : UInt8
  nlri : List UInt8
  deriving DecidableEq, Repr

def MpUnreachNlri.encodeValue (mp : MpUnreachNlri) : List UInt8 :=
  toBeBytes16 mp.afi.toNat ++ [mp.safi] ++ mp.nlri

/-- One path attribute, with a one- or a two-octet length. -/
def pushAttribute (flags typeCode : UInt8) (value : List UInt8) : List UInt8 :=
  if value.length > 255 then
    [flags ||| bgpAttrFlagExtLen, typeCode] ++ toBeBytes16 value.length ++ value
  else [flags, typeCode, UInt8.ofNat value.length] ++ value

structure BgpPathAttributes where
  origin : BgpOrigin
  asPath : AsPath
  nextHop : Ipv4Address
  med : Option UInt32
  localPref : Option UInt32
  atomicAggregate : Bool
  extCommunities : List (Vector UInt8 8)
  mpReach : Option MpReachNlri
  mpUnreach : Option MpUnreachNlri
  originatorId : Option Ipv4Address
  clusterList : List Ipv4Address
  fourOctetAs : Bool
  deriving DecidableEq, Repr

namespace BgpPathAttributes

def new (origin : BgpOrigin) (asPath : AsPath) (nextHop : Ipv4Address) : BgpPathAttributes :=
  ⟨origin, asPath, nextHop, none, none, false, [], none, none, none, [], false⟩

def mpWithdraw (mpUnreach : MpUnreachNlri) : BgpPathAttributes :=
  { new .igp .empty Ipv4Address.unspecified with mpUnreach := some mpUnreach }

def isMpWithdrawOnly (a : BgpPathAttributes) (hasIpv4Nlri : Bool) : Bool :=
  a.mpUnreach.isSome && a.mpReach.isNone && !hasIpv4Nlri

def encodeFor (a : BgpPathAttributes) (hasIpv4Nlri : Bool) : List UInt8 :=
  if a.isMpWithdrawOnly hasIpv4Nlri then
    match a.mpUnreach with
    | some mp => pushAttribute bgpAttrFlagOptional bgpAttrMpUnreachNlri mp.encodeValue
    | none => []
  else
    [bgpAttrFlagTransitive, bgpAttrOrigin, 1, a.origin.toU8] ++
    pushAttribute bgpAttrFlagTransitive bgpAttrAsPath (a.asPath.encodeWidth a.fourOctetAs) ++
    -- the true path travels beside the narrow one only when that one holds AS_TRANS
    (if !a.fourOctetAs && a.asPath.needsFourOctets then
      pushAttribute (bgpAttrFlagOptional ||| bgpAttrFlagTransitive) bgpAttrAs4Path
        (a.asPath.encodeWidth true) else []) ++
    (if hasIpv4Nlri then [bgpAttrFlagTransitive, bgpAttrNextHop, 4] ++ a.nextHop.octets else []) ++
    (match a.med with
      | some med => [bgpAttrFlagOptional, bgpAttrMed, 4] ++ toBeBytes32 med.toNat
      | none => []) ++
    (match a.localPref with
      | some lp => [bgpAttrFlagTransitive, bgpAttrLocalPref, 4] ++ toBeBytes32 lp.toNat
      | none => []) ++
    (if a.atomicAggregate then [bgpAttrFlagTransitive, bgpAttrAtomicAggregate, 0] else []) ++
    (match a.originatorId with
      | some id => [bgpAttrFlagOptional, bgpAttrOriginatorId, 4] ++ id.octets
      | none => []) ++
    (if a.clusterList.isEmpty then [] else
      pushAttribute bgpAttrFlagOptional bgpAttrClusterList
        (a.clusterList.flatMap Ipv4Address.octets)) ++
    (if a.extCommunities.isEmpty then [] else
      pushAttribute (bgpAttrFlagOptional ||| bgpAttrFlagTransitive) bgpAttrExtCommunities
        (a.extCommunities.flatMap Vector.toList)) ++
    (match a.mpReach with
      | some mp => pushAttribute bgpAttrFlagOptional bgpAttrMpReachNlri mp.encodeValue
      | none => []) ++
    (match a.mpUnreach with
      | some mp => pushAttribute bgpAttrFlagOptional bgpAttrMpUnreachNlri mp.encodeValue
      | none => [])

end BgpPathAttributes

structure BgpUpdateMessage where
  withdrawn : List Ipv4Prefix
  attributes : Option BgpPathAttributes
  nlri : List Ipv4Prefix
  deriving DecidableEq, Repr

namespace BgpUpdateMessage

def announce (attributes : BgpPathAttributes) (nlri : List Ipv4Prefix) : BgpUpdateMessage :=
  ⟨[], some attributes, nlri⟩

def withdraw (withdrawn : List Ipv4Prefix) : BgpUpdateMessage := ⟨withdrawn, none, []⟩

def mpAnnounce (attributes : BgpPathAttributes) : BgpUpdateMessage := ⟨[], some attributes, []⟩

def mpWithdraw (mpUnreach : MpUnreachNlri) : BgpUpdateMessage :=
  ⟨[], some (.mpWithdraw mpUnreach), []⟩

def endOfRib : BgpUpdateMessage := ⟨[], none, []⟩

def isEndOfRib (u : BgpUpdateMessage) : Bool :=
  u.withdrawn.isEmpty && u.nlri.isEmpty && u.attributes.isNone

/-- The attributes describe something: IPv4 NLRI, or a multiprotocol attribute. -/
def describes (u : BgpUpdateMessage) (a : BgpPathAttributes) : Bool :=
  !u.nlri.isEmpty || a.mpReach.isSome || a.mpUnreach.isSome

def attrBytes (u : BgpUpdateMessage) : List UInt8 :=
  match u.attributes with
  | some a => if u.describes a then a.encodeFor (!u.nlri.isEmpty) else []
  | none => []

def encodeBody (u : BgpUpdateMessage) : List UInt8 :=
  let withdrawnBytes := u.withdrawn.flatMap Ipv4Prefix.encode
  toBeBytes16 withdrawnBytes.length ++ withdrawnBytes ++ toBeBytes16 u.attrBytes.length ++
    u.attrBytes ++ u.nlri.flatMap Ipv4Prefix.encode

end BgpUpdateMessage

structure BgpOpenMessage where
  version : UInt8
  myAs : UInt16
  holdTime : UInt16
  bgpId : Ipv4Address
  optParams : List UInt8
  deriving DecidableEq, Repr

def BgpOpenMessage.encodeBody (o : BgpOpenMessage) : List UInt8 :=
  [o.version] ++ toBeBytes16 o.myAs.toNat ++ toBeBytes16 o.holdTime.toNat ++ o.bgpId.octets ++
    [UInt8.ofNat o.optParams.length] ++ o.optParams

structure BgpNotificationMessage where
  errorCode : UInt8
  errorSubcode : UInt8
  data : List UInt8
  deriving DecidableEq, Repr

inductive BgpRouteRefreshSubtype where
  | normal
  | beginning
  | «end»
  | unknown (code : UInt8)
  deriving DecidableEq, Repr

def BgpRouteRefreshSubtype.code : BgpRouteRefreshSubtype → UInt8
  | .normal => 0
  | .beginning => 1
  | .end => 2
  | .unknown code => code

def BgpRouteRefreshSubtype.fromCode (code : UInt8) : BgpRouteRefreshSubtype :=
  if code = 0 then .normal
  else if code = 1 then .beginning
  else if code = 2 then .end
  else .unknown code

structure BgpRouteRefreshMessage where
  family : AfiSafi
  subtype : BgpRouteRefreshSubtype
  deriving DecidableEq, Repr

def BgpRouteRefreshMessage.encodeBody (r : BgpRouteRefreshMessage) : List UInt8 :=
  toBeBytes16 r.family.afi.toNat ++ [r.subtype.code, r.family.safi]

inductive BgpPdu where
  | «open» (o : BgpOpenMessage)
  | update (u : BgpUpdateMessage)
  | notification (n : BgpNotificationMessage)
  | keepalive
  | routeRefresh (r : BgpRouteRefreshMessage)
  deriving DecidableEq, Repr

namespace BgpPdu

def typeCode : BgpPdu → UInt8
  | .open _ => bgpMsgOpen
  | .update _ => bgpMsgUpdate
  | .notification _ => bgpMsgNotification
  | .keepalive => bgpMsgKeepalive
  | .routeRefresh _ => bgpMsgRouteRefresh

def body : BgpPdu → List UInt8
  | .open o => o.encodeBody
  | .update u => u.encodeBody
  | .notification n => [n.errorCode, n.errorSubcode] ++ n.data
  | .keepalive => []
  | .routeRefresh r => r.encodeBody

def serialize (m : BgpPdu) : List UInt8 :=
  bgpMarker ++ toBeBytes16 (bgpHeaderLen + m.body.length) ++ [m.typeCode] ++ m.body

end BgpPdu

end Bgp

end ToyTcpip
