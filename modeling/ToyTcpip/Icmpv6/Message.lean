import ToyTcpip.Ipv6Packet

/-! ICMPv6 messages and the validation of Neighbor Discovery, of `icmpv6.rs`. -/
namespace ToyTcpip

def icmpv6TypePacketTooBig : UInt8 := 2

def icmpv6TypeEchoRequest : UInt8 := 128

def icmpv6TypeEchoReply : UInt8 := 129

def icmpv6TypeRouterSolicit : UInt8 := 133

def icmpv6TypeRouterAdvert : UInt8 := 134

def icmpv6TypeNeighborSolicit : UInt8 := 135

def icmpv6TypeNeighborAdvert : UInt8 := 136

def icmpv6TypeRedirect : UInt8 := 137

def ndpOptSrcLinkLayerAddr : UInt8 := 1

def ndpOptTargetLinkLayerAddr : UInt8 := 2

def ndpOptPrefixInformation : UInt8 := 3

def ndpOptRedirectedHeader : UInt8 := 4

def ndpOptMtu : UInt8 := 5

def ndpOptRouteInformation : UInt8 := 24

/-! ### Options -/

/-- The length in bytes that the option in front announces. -/
def optionLen (options : List UInt8) : ℕ := (byteAt options 1).toNat * 8

/-- The loop over a list of options that all these functions share: `bad` when the list is cut short
or an option is empty, the first answer of `visit`, or `done` at the end. -/
def scanOptions {α : Type} (bad : α) (visit : List UInt8 → Option α) (done : α)
    (options : List UInt8) : α :=
  if options = [] then done
  else if options.length < 2 then bad
  else if _h : optionLen options = 0 then bad
  else if options.length < optionLen options then bad
  else
    match visit (options.take (optionLen options)) with
    | some answer => answer
    | none => scanOptions bad visit done (options.drop (optionLen options))
termination_by options.length
decreasing_by
  simp only [List.length_drop]
  omega

def ndpOptionsWellFormed (options : List UInt8) : Bool :=
  scanOptions false (fun _ => none) true options

/-- Called on well-formed options only. -/
def ndpOptionsContain (options : List UInt8) (optionType : UInt8) : Bool :=
  scanOptions false (fun o => if byteAt o 0 = optionType then some true else none) false options

def ndpEthernetLlaOptionLengthValid (options : List UInt8) (optionType : UInt8) : Bool :=
  scanOptions false
    (fun o => if byteAt o 0 = optionType ∧ byteAt o 1 ≠ 1 then some false else none) true options

def ndpEthernetLinkLayerAddress (options : List UInt8) (optionType : UInt8) : Option MacAddress :=
  scanOptions none
    (fun o =>
      if byteAt o 0 = optionType then some (if o.length ≠ 8 then none else some (macAt o 2))
      else none) none options

/-! ### Messages -/

structure Icmpv6Packet where
  msgType : UInt8
  code : UInt8
  checksum : ℕ
  payload : List UInt8
  deriving DecidableEq, Repr

inductive Icmpv6Error where
  | packetTooShort (len : ℕ)
  | invalidChecksum (found : ℕ)
  deriving DecidableEq, Repr

structure RedirectMessage where
  target : Ipv6Address
  destination : Ipv6Address
  targetLinkLayerAddress : Option MacAddress
  redirectedSource : Option Ipv6Address
  redirectedDestination : Option Ipv6Address
  deriving DecidableEq, Repr

namespace Icmpv6Packet

def parse (srcIp dstIp : Ipv6Address) (data : List UInt8) : Except Icmpv6Error Icmpv6Packet :=
  if data.length < 4 then .error (.packetTooShort data.length)
  else if computeIpv6TransportChecksum srcIp dstIp nextHeaderIcmpv6 data ≠ 0 then
    .error (.invalidChecksum (wordAt data 2))
  else .ok ⟨byteAt data 0, byteAt data 1, wordAt data 2, data.drop 4⟩

/-- The tests that solicitations and advertisements share: the fixed part of 20 bytes with a target
that is no group, and the options after it. -/
def neighborTarget (icmp : Icmpv6Packet) (msgType optionType hopLimit : UInt8) :
    Option Ipv6Address :=
  if icmp.msgType ≠ msgType ∨ icmp.code ≠ 0 ∨ hopLimit ≠ 255 ∨ icmp.payload.length < 20 then none
  else
    let target := ipv6At icmp.payload 4
    if target.isMulticast ∨ !ndpOptionsWellFormed (icmp.payload.drop 20) ∨
        !ndpEthernetLlaOptionLengthValid (icmp.payload.drop 20) optionType then none
    else some target

def validatedNeighborSolicitationTarget (icmp : Icmpv6Packet) (srcIp dstIp : Ipv6Address)
    (hopLimit : UInt8) : Option Ipv6Address :=
  (icmp.neighborTarget icmpv6TypeNeighborSolicit ndpOptSrcLinkLayerAddr hopLimit).bind fun target =>
    if srcIp.isUnspecified ∧ (dstIp ≠ target.solicitedNodeMulticast ∨
        ndpOptionsContain (icmp.payload.drop 20) ndpOptSrcLinkLayerAddr) then none
    else some target

/-- The flags of an advertisement. -/
def routerFlag (icmp : Icmpv6Packet) : Bool := byteAt icmp.payload 0 &&& 0x80 ≠ 0

def solicitedFlag (icmp : Icmpv6Packet) : Bool := byteAt icmp.payload 0 &&& 0x40 ≠ 0

def overrideFlag (icmp : Icmpv6Packet) : Bool := byteAt icmp.payload 0 &&& 0x20 ≠ 0

def validatedNeighborAdvertisementTarget (icmp : Icmpv6Packet) (dstIp : Ipv6Address)
    (hopLimit : UInt8) : Option Ipv6Address :=
  (icmp.neighborTarget icmpv6TypeNeighborAdvert ndpOptTargetLinkLayerAddr
      hopLimit).bind fun target =>
    if dstIp.isMulticast ∧ icmp.solicitedFlag then none else some target

/-- The addresses quoted by the first Redirected Header, `none` for a bad one. -/
def redirectedHeader (options : List UInt8) : Option (Option (Ipv6Address × Ipv6Address)) :=
  scanOptions none
    (fun o =>
      if byteAt o 0 = ndpOptRedirectedHeader then
        some (if o.length < 48 then none
          else if (byteAt o 8).toNat / 16 ≠ 6 then none
          else some (some (ipv6At o 16, ipv6At o 32)))
      else none) (some none) options

def validatedRedirect (icmp : Icmpv6Packet) (srcIp dstIp : Ipv6Address) (hopLimit : UInt8) :
    Option RedirectMessage :=
  if icmp.msgType ≠ icmpv6TypeRedirect ∨ icmp.code ≠ 0 ∨ hopLimit ≠ 255 ∨ !srcIp.isLinkLocal ∨
      dstIp.isUnspecified ∨ dstIp.isMulticast ∨ icmp.payload.length < 36 then none
  else
    let target := ipv6At icmp.payload 4
    let destination := ipv6At icmp.payload 20
    if target.isUnspecified ∨ target.isMulticast ∨ destination.isUnspecified ∨
        destination.isMulticast ∨ (target ≠ destination ∧ !target.isLinkLocal) then none
    else
      let options := icmp.payload.drop 36
      if !ndpOptionsWellFormed options ∨
          !ndpEthernetLlaOptionLengthValid options ndpOptTargetLinkLayerAddr then none
      else
        (redirectedHeader options).map fun quoted =>
          { target, destination
            targetLinkLayerAddress := ndpEthernetLinkLayerAddress options ndpOptTargetLinkLayerAddr
            redirectedSource := quoted.map Prod.fst
            redirectedDestination := quoted.map Prod.snd }

def neighborAdvertisementTargetLinkLayerAddress (icmp : Icmpv6Packet) : Option MacAddress :=
  if icmp.msgType ≠ icmpv6TypeNeighborAdvert ∨ icmp.payload.length < 20 then none
  else ndpEthernetLinkLayerAddress (icmp.payload.drop 20) ndpOptTargetLinkLayerAddr

def ndpSourceLinkLayerAddress (icmp : Icmpv6Packet) : Option MacAddress :=
  if icmp.msgType = icmpv6TypeNeighborSolicit ∧ 20 ≤ icmp.payload.length then
    ndpEthernetLinkLayerAddress (icmp.payload.drop 20) ndpOptSrcLinkLayerAddr
  else if icmp.msgType = icmpv6TypeRouterSolicit ∧ 4 ≤ icmp.payload.length then
    ndpEthernetLinkLayerAddress (icmp.payload.drop 4) ndpOptSrcLinkLayerAddr
  else if icmp.msgType = icmpv6TypeRouterAdvert ∧ 12 ≤ icmp.payload.length then
    ndpEthernetLinkLayerAddress (icmp.payload.drop 12) ndpOptSrcLinkLayerAddr
  else none

/-! ### Builders -/

/-- A message with its checksum filled in. -/
def build (srcIp dstIp : Ipv6Address) (msgType : UInt8) (body : List UInt8) : List UInt8 :=
  let csum := computeIpv6TransportChecksum srcIp dstIp nextHeaderIcmpv6 ([msgType, 0, 0, 0] ++ body)
  [msgType, 0] ++ toBeBytes16 csum ++ body

def buildEchoReply (srcIp dstIp : Ipv6Address) (body : List UInt8) : List UInt8 :=
  build srcIp dstIp icmpv6TypeEchoReply body

def buildRouterSolicitation (srcIp dstIp : Ipv6Address) (sourceMac : Option MacAddress) :
    List UInt8 :=
  let slla := match sourceMac with
    | some mac => if srcIp.isUnspecified then [] else [ndpOptSrcLinkLayerAddr, 1] ++ mac.octets
    | none => []
  build srcIp dstIp icmpv6TypeRouterSolicit ([0, 0, 0, 0] ++ slla)

def buildNeighborSolicitation (srcIp dstIp targetIp : Ipv6Address) (senderMac : MacAddress) :
    List UInt8 :=
  build srcIp dstIp icmpv6TypeNeighborSolicit
    ([0, 0, 0, 0] ++ targetIp.octets ++ [ndpOptSrcLinkLayerAddr, 1] ++ senderMac.octets)

def buildDadNeighborSolicitation (dstIp targetIp : Ipv6Address) : List UInt8 :=
  build .unspecified dstIp icmpv6TypeNeighborSolicit ([0, 0, 0, 0] ++ targetIp.octets)

def buildNeighborAdvertisement (srcIp dstIp targetIp : Ipv6Address) (targetMac : MacAddress)
    (isRouter solicited overriding : Bool) : List UInt8 :=
  let flags := (if isRouter then 0x80 else 0) ||| (if solicited then 0x40 else 0) |||
    (if overriding then 0x20 else 0)
  build srcIp dstIp icmpv6TypeNeighborAdvert
    ([flags, 0, 0, 0] ++ targetIp.octets ++ [ndpOptTargetLinkLayerAddr, 1] ++ targetMac.octets)

@[simp] theorem length_build (srcIp dstIp : Ipv6Address) (msgType : UInt8) (body : List UInt8) :
    (build srcIp dstIp msgType body).length = 4 + body.length := by
  simp [build, toBeBytes16]
  omega

end Icmpv6Packet

/-- `ipv6_multicast_mac(..).unwrap_or(BROADCAST)`. -/
def ipv6MulticastMac (address : Ipv6Address) : MacAddress :=
  if address.isMulticast then
    let a := address.bytes
    ⟨#v[0x33, 0x33, a.getD 12 0, a.getD 13 0, a.getD 14 0, a.getD 15 0]⟩
  else .broadcast

def slaacAddress (pfx : Ipv6Address) (prefixLength : ℕ) (mac : MacAddress) : Option Ipv6Address :=
  if prefixLength ≠ 64 then none
  else
    let p := (pfx.mask 64).bytes
    let m := mac.bytes
    some ⟨#v[p.getD 0 0, p.getD 1 0, p.getD 2 0, p.getD 3 0, p.getD 4 0, p.getD 5 0, p.getD 6 0,
      p.getD 7 0, m.getD 0 0 ^^^ 0x02, m.getD 1 0, m.getD 2 0, 0xff, 0xfe, m.getD 3 0, m.getD 4 0,
      m.getD 5 0]⟩

end ToyTcpip
