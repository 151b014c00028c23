import ToyTcpip.Stack.Selection

/-! What the host stack sends: packets that wait for their next hop, solicitations, DAD probes. -/
namespace ToyTcpip.NetStack

open Hashed (HashMap HashOrder)

variable {τ : Type}

/-- A frame from this host. -/
def frameTo (s : NetStack τ) (dst : MacAddress) (ethertype : ℕ) (payload : List UInt8) : Frame :=
  EthernetFrame.serialize dst s.config.mac ethertype payload

/-- `entry(next_hop).or_default().push(packet)`. -/
def enqueue {κ : Type} [DecidableEq κ] (queues : HashMap κ (List (List UInt8))) (nextHop : κ)
    (packet : List UInt8) : HashMap κ (List (List UInt8)) :=
  queues.insert nextHop ((queues.lookup nextHop).getD [] ++ [packet])

def nextIpId (s : NetStack τ) : NetStack τ × ℕ :=
  ({ s with ipIdCounter := (s.ipIdCounter + 1) % 65536 }, s.ipIdCounter)

/-! ### IPv4 -/

/-- The route of a packet: by its flow when the bytes are a packet for `dst`, else by `dst`
alone. -/
def ipRoute (s : NetStack τ) (dst : Ipv4Address) (bytes : List UInt8) : Option Routing.RouteEntry :=
  let byFlow := match Ipv4Packet.parse bytes false with
    | .error _ => none
    | .ok packet =>
      if packet.header.dstIp ≠ dst then none
      else if packet.header.moreFragments ∨ packet.header.fragmentOffset ≠ 0 then
        s.routingTable.lookupResilientRouteForFragment packet.header.srcIp dst
          packet.header.protocol.toU8 packet.header.identification
      else
        let ports :=
          if (packet.header.protocol = IpProtocol.tcp ∨ packet.header.protocol = IpProtocol.udp) ∧
              4 ≤ packet.payload.length then
            (wordAt packet.payload 0, wordAt packet.payload 2)
          else (0, 0)
        s.routingTable.lookupResilientRouteForFlow
          ⟨packet.header.srcIp, dst, packet.header.protocol.toU8, ports.1, ports.2⟩
  byFlow.orElse fun _ => s.routingTable.lookup dst

def ipNextHop (s : NetStack τ) (dst : Ipv4Address) (bytes : List UInt8) : Ipv4Address :=
  ((s.ipRoute dst bytes).bind fun route => route.gateway).getD dst

def sendIpPacket (s : NetStack τ) (dst : Ipv4Address) (bytes : List UInt8) :
    NetStack τ × Option Frame :=
  let nextHop := s.ipNextHop dst bytes
  match s.arpTable.lookup nextHop with
  | some mac => (s, some (s.frameTo mac ethertypeIpv4 bytes))
  | none =>
    ({ s with pendingArpPackets := enqueue s.pendingArpPackets nextHop bytes },
      some (s.frameTo .broadcast ethertypeArp
        (ArpPacket.buildRequest s.config.mac s.config.ip nextHop).serialize))

/-! ### IPv6 -/

def ipv6PathMtu (s : NetStack τ) (destination : Ipv6Address) : Option ℕ :=
  s.ipv6PathMtuCache.lookup destination

/-- The longest packet for a destination. -/
def effectiveMtu (s : NetStack τ) (destination : Ipv6Address) : ℕ :=
  min ((s.ipv6PathMtu destination).getD s.ipv6LinkMtu) s.ipv6LinkMtu

def ipv6RouteNextHop (s : NetStack τ) (dst : Ipv6Address) : Ipv6Address :=
  ((s.ipv6RoutingTable.lookup dst).bind fun route => route.gateway).getD dst

/-- The next hop, after a Redirect whose router is still the first hop; others are forgotten. -/
def ipv6NextHop (s : NetStack τ) (dst : Ipv6Address) : NetStack τ × Ipv6Address :=
  match s.ipv6RedirectCache.lookup dst with
  | some entry =>
    if entry.router = s.ipv6RouteNextHop dst then (s, entry.target)
    else ({ s with ipv6RedirectCache := s.ipv6RedirectCache.erase dst }, s.ipv6RouteNextHop dst)
  | none => (s, s.ipv6RouteNextHop dst)

def icmpv6Packet (srcIp dstIp : Ipv6Address) (message : List UInt8) : List UInt8 :=
  Ipv6Packet.serialize srcIp dstIp nextHeaderIcmpv6 255 message

/-- The solicitation that resolves a next hop. -/
def solicit (s : NetStack τ) (nextHop : Ipv6Address) : Frame :=
  let dst := nextHop.solicitedNodeMulticast
  s.frameTo (ipv6MulticastMac dst) ethertypeIpv6
    (icmpv6Packet s.myIp6 dst
      (Icmpv6Packet.buildNeighborSolicitation s.myIp6 dst nextHop s.config.mac))

/-- The rest of `send_ip6_packet`, once the next hop is known. -/
def sendIp6Via (s : NetStack τ) (nextHop : Ipv6Address) (bytes : List UInt8) : NetStack τ × Frame :=
  let found := s.ndpTable.lookupForTransmit nextHop s.currentTimeMs
  let s := { s with ndpTable := found.1 }
  match found.2 with
  | some mac => (s, s.frameTo mac ethertypeIpv6 bytes)
  | none =>
    ({ s with pendingNdpPackets := enqueue s.pendingNdpPackets nextHop bytes }, s.solicit nextHop)

def sendIp6Packet (s : NetStack τ) (dst : Ipv6Address) (bytes : List UInt8) :
    NetStack τ × Option Frame :=
  if s.effectiveMtu dst < bytes.length then (s, none)
  else
    let routed := s.ipv6NextHop dst
    let sent := routed.1.sendIp6Via routed.2 bytes
    (sent.1, some sent.2)

/-! ### Router discovery and duplicate address detection -/

def routerSolicitation (s : NetStack τ) : Frame :=
  let src := s.config.ipv6.getD .unspecified
  let dst := Ipv6Address.linkLocalAllRouters
  let sourceMac := if src.isUnspecified then none else some s.config.mac
  s.frameTo (ipv6MulticastMac dst) ethertypeIpv6
    (icmpv6Packet src dst (Icmpv6Packet.buildRouterSolicitation src dst sourceMac))

def startRouterDiscovery (s : NetStack τ) : NetStack τ × Frame :=
  let s := { s with
    ipv6RouterDiscoveryExhausted := false
    ipv6RouterDiscovery := some ⟨1, satAddMs s.currentTimeMs ipv6RtrSolicitationIntervalMs⟩ }
  (s, s.routerSolicitation)

def cancelRouterDiscovery (s : NetStack τ) : NetStack τ :=
  { s with ipv6RouterDiscovery := none, ipv6RouterDiscoveryExhausted := false }

def dadProbe (s : NetStack τ) (address : Ipv6Address) : Frame :=
  let dst := address.solicitedNodeMulticast
  s.frameTo (ipv6MulticastMac dst) ethertypeIpv6
    (icmpv6Packet .unspecified dst (Icmpv6Packet.buildDadNeighborSolicitation dst address))

def startIpv6Dad (s : NetStack τ) (address : Ipv6Address) (len : ℕ) (gateway : Option Ipv6Address)
    (preferredLifetime validLifetime routerLifetime : ℕ) : NetStack τ × Option Frame :=
  if validLifetime = 0 then (s, none)
  else
    let now := s.currentTimeMs
    let preferredUntilMs := ipv6LifetimeDeadline now preferredLifetime
    let validUntilMs := ipv6LifetimeDeadline now validLifetime
    let routerUntilMs :=
      if 0 < routerLifetime then some (satAddMs now (routerLifetime * 1000)) else none
    if s.config.ipv6 = some address then
      let s := s.setIpv6DefaultGateway gateway
      ({ s with
        ipv6SlaacLifetimes := some ⟨address, preferredUntilMs, validUntilMs, gateway,
          routerUntilMs⟩ },
        none)
    else
      match s.ipv6Dad.filter fun dad => dad.address = address ∧ dad.prefixLen = len with
      | some dad =>
        ({ s with
          ipv6Dad := some { dad with
            gateway, preferredUntilMs, routerUntilMs
            validUntilMs := refreshedIpv6ValidDeadline now dad.validUntilMs validLifetime } }, none)
      | none =>
        ({ s with
          ipv6DadDuplicate := none
          ipv6Dad := some
            { address, prefixLen := min len 128, gateway
              deadlineMs := satAddMs now ipv6DadRetransTimerMs
              preferredUntilMs, validUntilMs, routerUntilMs } }, some (s.dadProbe address))

def markIpv6DadDuplicate (s : NetStack τ) (address : Ipv6Address) : NetStack τ :=
  if s.ipv6Dad.any fun dad => dad.address = address then
    { s with ipv6Dad := none, ipv6DadDuplicate := some address }
  else s

/-! ### What sending does apart from selection -/

section core

variable (s : NetStack τ) (dst : Ipv4Address) (dst6 nextHop6 : Ipv6Address) (bytes : List UInt8)

namespace Core

/-- A packet for a next hop whose address is not known waits. -/
def sendIp (c : Core) (nextHop : Ipv4Address) (bytes : List UInt8) : Core :=
  if (c.arpTable.lookup nextHop).isSome then c
  else { c with pendingArp := enqueue c.pendingArp nextHop bytes }

def sendIp6 (c : Core) (nextHop : Ipv6Address) (bytes : List UInt8) : Core :=
  { c with
    ndpTable := (c.ndpTable.lookupForTransmit nextHop c.time).1
    pendingNdp :=
      if (c.ndpTable.lookup nextHop).isSome then c.pendingNdp
      else enqueue c.pendingNdp nextHop bytes }

/-- A new tentative address, or new lifetimes for the one there is. -/
def startDad (c : Core) (address : Ipv6Address) (len preferredLifetime validLifetime : ℕ) : Core :=
  let preferred := ipv6LifetimeDeadline c.time preferredLifetime
  let valid := ipv6LifetimeDeadline c.time validLifetime
  if validLifetime = 0 then c
  else if c.config.ipv6 = some address then { c with slaac := some (address, preferred, valid) }
  else
    match c.dad.filter fun d => d.1.1 = address ∧ d.2.1 = len with
    | some ((_, _, current), rest) =>
      { c with
        dad := some
          ((address, preferred, refreshedIpv6ValidDeadline c.time current validLifetime), rest) }
    | none =>
      { c with
        dad := some ((address, preferred, valid), min len 128,
          satAddMs c.time ipv6DadRetransTimerMs) }

def markDuplicate (c : Core) (address : Ipv6Address) : Core :=
  { c with dad := c.dad.filter fun d => d.1.1 ≠ address }

end Core

@[simp] theorem core_nextIpId : s.nextIpId.1.core = s.core := rfl

theorem core_sendIpPacket :
    (s.sendIpPacket dst bytes).1.core = s.core.sendIp (s.ipNextHop dst bytes) bytes := by
  unfold sendIpPacket Core.sendIp
  cases h : s.arpTable.lookup (s.ipNextHop dst bytes) <;> simp [core, h]

@[simp] theorem core_ipv6NextHop : (s.ipv6NextHop dst6).1.core = s.core := by
  unfold ipv6NextHop
  split
  · split <;> rfl
  · rfl

theorem core_sendIp6Via :
    (s.sendIp6Via nextHop6 bytes).1.core = s.core.sendIp6 nextHop6 bytes := by
  have hfound := NdpTable.lookupForTransmit_snd s.ndpTable nextHop6 s.currentTimeMs
  unfold sendIp6Via Core.sendIp6
  dsimp only
  split
  · rename_i h
    rw [hfound] at h
    simp [core, h]
  · rename_i h
    rw [hfound] at h
    simp [core, h]

theorem core_sendIp6Packet :
    (s.sendIp6Packet dst6 bytes).1.core =
      if s.effectiveMtu dst6 < bytes.length then s.core
      else s.core.sendIp6 (s.ipv6NextHop dst6).2 bytes := by
  unfold sendIp6Packet
  split
  · rfl
  · exact (core_sendIp6Via _ _ _).trans (by rw [core_ipv6NextHop])

@[simp] theorem core_startRouterDiscovery : s.startRouterDiscovery.1.core = s.core := rfl

@[simp] theorem core_cancelRouterDiscovery : s.cancelRouterDiscovery.core = s.core := rfl

theorem core_startIpv6Dad (len : ℕ) (gateway : Option Ipv6Address)
    (preferredLifetime validLifetime routerLifetime : ℕ) :
    (s.startIpv6Dad dst6 len gateway preferredLifetime validLifetime routerLifetime).1.core =
      s.core.startDad dst6 len preferredLifetime validLifetime := by
  unfold startIpv6Dad Core.startDad
  split
  · rfl
  · dsimp only
    split
    · rename_i h
      rw [if_pos (show s.core.config.ipv6 = some dst6 from h)]
      have hg := core_setIpv6DefaultGateway s gateway
      simp only [core, Core.mk.injEq] at hg ⊢
      simp [hg, Ipv6SlaacLifetimes.terms]
    · rename_i h
      rw [if_neg (show s.core.config.ipv6 ≠ some dst6 from h)]
      cases hd : s.ipv6Dad with
      | none => simp [core, hd, PendingIpv6Dad.terms]
      | some dad =>
        by_cases hdad : dad.address = dst6 ∧ dad.prefixLen = len
        · obtain ⟨rfl, rfl⟩ := hdad
          simp [core, hd, PendingIpv6Dad.terms, Option.filter]
        · simp [core, hd, PendingIpv6Dad.terms, hdad, Option.filter]

theorem core_markIpv6DadDuplicate :
    (s.markIpv6DadDuplicate dst6).core = s.core.markDuplicate dst6 := by
  unfold markIpv6DadDuplicate Core.markDuplicate
  cases hd : s.ipv6Dad with
  | none => simp [core, hd]
  | some dad =>
    by_cases hdad : dad.address = dst6 <;> simp [core, hd, PendingIpv6Dad.terms, hdad,
      Option.filter]

end core

end ToyTcpip.NetStack
