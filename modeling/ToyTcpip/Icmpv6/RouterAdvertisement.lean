import ToyTcpip.Icmpv6.Message

/-! Router Advertisements of `icmpv6.rs`, with the options the host stack acts on. -/
namespace ToyTcpip

structure PrefixInformationOption where
  prefixLength : ℕ
  onLink : Bool
  autonomous : Bool
  validLifetime : ℕ
  preferredLifetime : ℕ
  address : Ipv6Address
  deriving DecidableEq, Repr

def PrefixInformationOption.new (address : Ipv6Address) (prefixLength : ℕ)
    (onLink autonomous : Bool) (validLifetime preferredLifetime : ℕ) : PrefixInformationOption :=
  let prefixLength := min prefixLength 128
  { prefixLength, onLink, autonomous, validLifetime
    preferredLifetime := min preferredLifetime validLifetime
    address := address.mask prefixLength }

inductive RouterPreference where
  | low
  | medium
  | high
  deriving DecidableEq, Repr

namespace RouterPreference

def rank : RouterPreference → ℕ
  | .low => 0
  | .medium => 1
  | .high => 2

/-- The two preference bits; the reserved value is Medium. -/
def fromRaFlags (flags : UInt8) : RouterPreference :=
  let bits := (flags >>> 3) &&& 0x03
  if bits = 0x01 then .high else if bits = 0x03 then .low else .medium

/-- In a route option the reserved value makes the option ignored. -/
def fromRioFlags (flags : UInt8) : Option RouterPreference :=
  let bits := (flags >>> 3) &&& 0x03
  if bits = 0x00 then some .medium
  else if bits = 0x01 then some .high
  else if bits = 0x03 then some .low
  else none

end RouterPreference

structure RouteInformationOption where
  prefixLength : ℕ
  preference : RouterPreference
  routeLifetime : ℕ
  address : Ipv6Address
  deriving DecidableEq, Repr

def RouteInformationOption.new (address : Ipv6Address) (prefixLength : ℕ)
    (preference : RouterPreference) (routeLifetime : ℕ) : RouteInformationOption :=
  let prefixLength := min prefixLength 128
  ⟨prefixLength, preference, routeLifetime, address.mask prefixLength⟩

structure RouterAdvertisement where
  currentHopLimit : UInt8
  preference : RouterPreference
  routerLifetime : ℕ
  reachableTime : ℕ
  retransTimer : ℕ
  mtu : Option ℕ
  prefixes : List PrefixInformationOption
  routes : List RouteInformationOption
  deriving DecidableEq, Repr

/-- The first `n` bytes at position `i`, filled up with zeros to an address. -/
def paddedAddressAt (data : List UInt8) (i n : ℕ) : Ipv6Address :=
  ⟨Vector.ofFn fun j => if j.val < n then byteAt data (i + j) else 0⟩

namespace RouterAdvertisement

/-- A prefix option of 32 bytes; one whose lifetimes contradict each other is skipped. -/
def prefixOption (o : List UInt8) : Option (List PrefixInformationOption) :=
  if o.length ≠ 32 then none
  else if (byteAt o 2).toNat > 128 then none
  else if longAt o 8 > longAt o 4 then some []
  else some [.new (ipv6At o 16) (byteAt o 2).toNat (byteAt o 3 &&& 0x80 ≠ 0)
    (byteAt o 3 &&& 0x40 ≠ 0) (longAt o 4) (longAt o 8)]

def routeLengthValid (prefixLength units : ℕ) : Bool :=
  if prefixLength = 0 then 1 ≤ units ∧ units ≤ 3
  else if prefixLength ≤ 64 then units = 2 ∨ units = 3
  else if prefixLength ≤ 128 then units = 3
  else false

def routeOption (o : List UInt8) : List RouteInformationOption :=
  if routeLengthValid (byteAt o 2).toNat (byteAt o 1).toNat then
    match RouterPreference.fromRioFlags (byteAt o 3) with
    | some preference =>
      [.new (paddedAddressAt o 8 (o.length - 8)) (byteAt o 2).toNat preference (longAt o 4)]
    | none => []
  else []

/-- One round of the option loop, for an option with all its bytes. -/
def applyOption (ra : RouterAdvertisement) (o : List UInt8) : Option RouterAdvertisement :=
  if byteAt o 0 = ndpOptPrefixInformation then
    (prefixOption o).map fun found => { ra with prefixes := ra.prefixes ++ found }
  else if byteAt o 0 = ndpOptMtu then
    some (if o.length = 8 then { ra with mtu := some (longAt o 4) } else ra)
  else if byteAt o 0 = ndpOptRouteInformation then
    some { ra with routes := ra.routes ++ routeOption o }
  else some ra

def parseOptions (ra : RouterAdvertisement) (options : List UInt8) : Option RouterAdvertisement :=
  if options = [] then some ra
  else if options.length < 2 then none
  else if _h : optionLen options = 0 then none
  else if options.length < optionLen options then none
  else
    (ra.applyOption (options.take (optionLen options))).bind fun ra =>
      parseOptions ra (options.drop (optionLen options))
termination_by options.length
decreasing_by
  simp only [List.length_drop]
  omega

def parse (icmp : Icmpv6Packet) : Option RouterAdvertisement :=
  if icmp.msgType ≠ icmpv6TypeRouterAdvert ∨ icmp.code ≠ 0 ∨ icmp.payload.length < 12 then none
  else
    parseOptions
      { currentHopLimit := byteAt icmp.payload 0
        preference := .fromRaFlags (byteAt icmp.payload 1)
        routerLifetime := wordAt icmp.payload 2
        reachableTime := longAt icmp.payload 4
        retransTimer := longAt icmp.payload 8
        mtu := none, prefixes := [], routes := [] } (icmp.payload.drop 12)

end RouterAdvertisement

def Icmpv6Packet.validatedRouterAdvertisement (icmp : Icmpv6Packet) (srcIp : Ipv6Address)
    (hopLimit : UInt8) : Option RouterAdvertisement :=
  if icmp.msgType ≠ icmpv6TypeRouterAdvert ∨ icmp.code ≠ 0 ∨ hopLimit ≠ 255 ∨ !srcIp.isLinkLocal ∨
      icmp.payload.length < 12 ∨ !ndpOptionsWellFormed (icmp.payload.drop 12) ∨
      !ndpEthernetLlaOptionLengthValid (icmp.payload.drop 12) ndpOptSrcLinkLayerAddr then none
  else RouterAdvertisement.parse icmp

end ToyTcpip
