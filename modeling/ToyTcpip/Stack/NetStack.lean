import ToyTcpip.Arp
import ToyTcpip.Firewall
import ToyTcpip.Fragment.Split
import ToyTcpip.Icmpv6.Ndp
import ToyTcpip.Routing.Table6

/-! The state of the host stack of `stack.rs` and what selects its IPv6 routers and routes. -/
namespace ToyTcpip

open Hashed (HashMap HashOrder)
open Routing (RoutingTable Ipv6RoutingTable Ipv4FlowKey)

structure NetStackConfig where
  mac : MacAddress
  ip : Ipv4Address
  ipv6 : Option Ipv6Address
  subnetMask : ℕ
  gateway : Option Ipv4Address
  deriving DecidableEq, Repr

/-- The station of the samples whose address ends in `last`. -/
def labMac (last : UInt8) : MacAddress := ⟨#v[2, 0, 0, 0, 0, last]⟩

def ipv6DadRetransTimerMs : ℕ := 1000

def ipv6MaxRtrSolicitations : ℕ := 3

def ipv6RtrSolicitationIntervalMs : ℕ := 4000

def ipv6DefaultHopLimit : UInt8 := 64

def ipv6EthernetLinkMtu : ℕ := 1500

def ipv6SlaacTwoHoursMs : ℕ := 2 * 60 * 60 * 1000

structure Ipv6RouterDiscovery where
  solicitationsSent : ℕ
  nextSolicitationMs : ℕ
  deriving DecidableEq, Repr

structure Ipv6SlaacLifetimes where
  address : Ipv6Address
  preferredUntilMs : Option ℕ
  validUntilMs : Option ℕ
  router : Option Ipv6Address
  routerUntilMs : Option ℕ
  deriving DecidableEq, Repr

structure PendingIpv6Dad where
  address : Ipv6Address
  prefixLen : ℕ
  gateway : Option Ipv6Address
  deadlineMs : ℕ
  preferredUntilMs : Option ℕ
  validUntilMs : Option ℕ
  routerUntilMs : Option ℕ
  deriving DecidableEq, Repr

/-- What is promised about the address, apart from the router. -/
def Ipv6SlaacLifetimes.terms (l : Ipv6SlaacLifetimes) : Ipv6Address × Option ℕ × Option ℕ :=
  (l.address, l.preferredUntilMs, l.validUntilMs)

def PendingIpv6Dad.terms (d : PendingIpv6Dad) : (Ipv6Address × Option ℕ × Option ℕ) × ℕ × ℕ :=
  ((d.address, d.preferredUntilMs, d.validUntilMs), d.prefixLen, d.deadlineMs)

structure Ipv6RedirectEntry where
  router : Ipv6Address
  target : Ipv6Address
  deriving DecidableEq, Repr

/-! ### Deadlines, `none` for those that never come -/

/-- `deadline.is_none_or(|deadline| now < deadline)`. -/
def stillValid (now : ℕ) (deadline : Option ℕ) : Bool := deadline.all fun d => now < d

/-- `u32::MAX`, the infinite lifetime. -/
def infiniteLifetime : ℕ := 2 ^ 32 - 1

def ipv6LifetimeDeadline (now lifetimeSecs : ℕ) : Option ℕ :=
  if lifetimeSecs = infiniteLifetime then none else some (satAddMs now (lifetimeSecs * 1000))

def ipv6RemainingLifetimeMs (deadline : Option ℕ) (now : ℕ) : ℕ :=
  (deadline.map fun d => d - now).getD u64Max

def refreshedIpv6ValidDeadline (now : ℕ) (currentDeadline : Option ℕ) (advertisedSecs : ℕ) :
    Option ℕ :=
  if advertisedSecs = infiniteLifetime then none
  else
    let advertisedMs := advertisedSecs * 1000
    let remainingMs := ipv6RemainingLifetimeMs currentDeadline now
    if advertisedMs > ipv6SlaacTwoHoursMs ∨ advertisedMs > remainingMs then
      some (satAddMs now advertisedMs)
    else if remainingMs ≤ ipv6SlaacTwoHoursMs then currentDeadline
    else some (satAddMs now ipv6SlaacTwoHoursMs)

/-- An ethernet frame as bytes. -/
abbrev Frame := List UInt8

/-- A datagram that a transport hands down. -/
structure Outgoing where
  srcIp : Ipv4Address
  dstIp : Ipv4Address
  protocol : UInt8
  payload : List UInt8
  deriving DecidableEq, Repr

/-- The protocols above IPv4, whose state the network layer carries: what they want to send when the
timers are stepped, and what they answer to a packet for this host, with the hardware address that
the answer goes to. -/
class Transports (τ : Type) where
  stepTimers : τ → ℕ → τ × List Outgoing
  receive : τ → NetStackConfig → Ipv4Packet → MacAddress → ℕ → τ × List (MacAddress × Outgoing)

/-- A route candidate of Router Advertisements: prefix, length and advertising router. -/
abbrev RaRouteKey := Ipv6Address × ℕ × Ipv6Address

structure NetStack (τ : Type) where
  config : NetStackConfig
  arpTable : ArpTable
  ndpTable : NdpTable
  routingTable : RoutingTable
  ipv6RoutingTable : Ipv6RoutingTable
  ipv6PrefixLen : Option ℕ
  ipv6Gateway : Option Ipv6Address
  ipv6DefaultRouters : List (Ipv6Address × Option ℕ × RouterPreference)
  ipv6Dad : Option PendingIpv6Dad
  ipv6DadDuplicate : Option Ipv6Address
  ipv6SlaacLifetimes : Option Ipv6SlaacLifetimes
  ipv6RaOnLinkPrefixes : HashMap (Ipv6Address × ℕ) (Option ℕ)
  ipv6RaRoutes : HashMap RaRouteKey (Option ℕ × RouterPreference)
  ipv6FailedRioRouters : Finset Ipv6Address
  ipv6RouterDiscovery : Option Ipv6RouterDiscovery
  ipv6RouterDiscoveryExhausted : Bool
  ipv6HopLimit : UInt8
  ipv6LinkMtu : ℕ
  ipv6PathMtuCache : HashMap Ipv6Address ℕ
  ipv6RedirectCache : HashMap Ipv6Address Ipv6RedirectEntry
  firewall : Firewall
  ipIdCounter : ℕ
  currentTimeMs : ℕ
  pendingArpPackets : HashMap Ipv4Address (List (List UInt8))
  pendingNdpPackets : HashMap Ipv6Address (List (List UInt8))
  transports : τ

/-- `RoutingTable::add_route`, for the one interface. -/
def addStaticRoute (t : RoutingTable) (destination : Ipv4Address) (len : ℕ)
    (gateway : Option Ipv4Address) : RoutingTable :=
  t.addRouteFrom destination len gateway "eth0" .static

/-- The routes of a host: its subnet and its gateway. -/
def NetStackConfig.routes (config : NetStackConfig) : RoutingTable :=
  let t := addStaticRoute .new (config.ip.mask config.subnetMask) config.subnetMask none
  match config.gateway with
  | some gw => addStaticRoute t ⟨0, 0, 0, 0⟩ 0 (some gw)
  | none => t

def Routing.Ipv6RoutingTable.findExact (t : Ipv6RoutingTable)
    (destination : Ipv6Address) (len : ℕ) : Option Routing.Ipv6RouteEntry :=
  t.routes.find? fun r => r.key = (destination.mask len, min len 128)

namespace NetStack

variable {τ : Type}

def new (config : NetStackConfig) (transports : τ) : NetStack τ :=
  { config
    arpTable := .new
    ndpTable := .new
    routingTable := config.routes
    ipv6RoutingTable := .new
    ipv6PrefixLen := none
    ipv6Gateway := none
    ipv6DefaultRouters := []
    ipv6Dad := none
    ipv6DadDuplicate := none
    ipv6SlaacLifetimes := none
    ipv6RaOnLinkPrefixes := ∅
    ipv6RaRoutes := ∅
    ipv6FailedRioRouters := ∅
    ipv6RouterDiscovery := none
    ipv6RouterDiscoveryExhausted := false
    ipv6HopLimit := ipv6DefaultHopLimit
    ipv6LinkMtu := ipv6EthernetLinkMtu
    ipv6PathMtuCache := ∅
    ipv6RedirectCache := ∅
    firewall := .new
    ipIdCounter := 1
    currentTimeMs := 0
    pendingArpPackets := ∅
    pendingNdpPackets := ∅
    transports }

def myIp6 (s : NetStack τ) : Ipv6Address := s.config.ipv6.getD .loopback

/-! ### Configuration of the interface -/

/-- Without the connected route of the configured address. -/
def dropConnected (s : NetStack τ) : NetStack τ :=
  match s.config.ipv6, s.ipv6PrefixLen with
  | some address, some len =>
    { s with ipv6RoutingTable := s.ipv6RoutingTable.removeRoute address len .connected }
  | _, _ => s

/-- Without the default route through the selected gateway. -/
def dropGateway (s : NetStack τ) : NetStack τ :=
  if s.ipv6Gateway.isSome then
    { s with ipv6RoutingTable := s.ipv6RoutingTable.removeRoute .unspecified 0 .static }
  else s

def addGateway (s : NetStack τ) (gateway : Option Ipv6Address) : NetStack τ :=
  match gateway with
  | some gw =>
    { s with
      ipv6RoutingTable := s.ipv6RoutingTable.addRouteFrom .unspecified 0 (some gw) "eth0" .static }
  | none => s

def configureIpv6Interface (s : NetStack τ) (address : Ipv6Address) (len : ℕ)
    (gateway : Option Ipv6Address) : NetStack τ :=
  let s : NetStack τ :=
    { s with
      ipv6Dad := none
      ipv6DadDuplicate := none
      ipv6SlaacLifetimes := none
      ipv6RaRoutes := ∅
      ipv6FailedRioRouters := ∅
      ipv6RoutingTable := s.ipv6RoutingTable.removeAllFrom .raRoute
      ipv6PathMtuCache := ∅
      ipv6RedirectCache := ∅ }
  let s := s.dropConnected.dropGateway
  let len := min len 128
  addGateway
    { s with
      config := { s.config with ipv6 := some address }
      ipv6PrefixLen := some len
      ipv6Gateway := gateway
      ipv6RoutingTable :=
        s.ipv6RoutingTable.addRouteFrom address len none "eth0" .connected } gateway

def clearIpv6PathMtu (s : NetStack τ) (destination : Ipv6Address) : NetStack τ :=
  { s with ipv6PathMtuCache := s.ipv6PathMtuCache.erase destination }

def clearIpv6Interface (s : NetStack τ) : NetStack τ :=
  let s := s.dropConnected.dropGateway
  { s with
    config := { s.config with ipv6 := none }
    ipv6PrefixLen := none
    ipv6Gateway := none
    ipv6DefaultRouters := []
    ipv6RaRoutes := ∅
    ipv6FailedRioRouters := ∅
    ipv6RoutingTable := s.ipv6RoutingTable.removeAllFrom .raRoute
    ipv6Dad := none
    ipv6DadDuplicate := none
    ipv6SlaacLifetimes := none
    ipv6PathMtuCache := ∅
    ipv6RedirectCache := ∅
    ipv6HopLimit := ipv6DefaultHopLimit
    ipv6LinkMtu := ipv6EthernetLinkMtu
    pendingNdpPackets := ∅ }

def applyDhcpAck (s : NetStack τ) (yiaddr : Ipv4Address) (subnetMask : Option Ipv4Address)
    (router : Option Ipv4Address) : NetStack τ :=
  let config :=
    { s.config with
      ip := yiaddr
      subnetMask := (subnetMask.map fun mask =>
        ((List.range 32).filter fun i => mask.toU32.toNat.testBit i).length).getD
          s.config.subnetMask
      gateway := router.orElse fun _ => s.config.gateway }
  { s with config, routingTable := config.routes }

end NetStack

end ToyTcpip
