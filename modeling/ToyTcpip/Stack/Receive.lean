import ToyTcpip.Stack.Send

/-! The frames that the host stack receives. -/
namespace ToyTcpip.NetStack

open Hashed (HashMap HashOrder)

variable {τ : Type}

/-! ### ARP and IPv4 -/

/-- The packets that waited for an address that is now known. -/
def drained (s : NetStack τ) (mac : MacAddress) (ethertype : ℕ)
    (queue : Option (List (List UInt8))) :
    List Frame := (queue.getD []).map (s.frameTo mac ethertype)

def processArp (s : NetStack τ) (payload : List UInt8) : NetStack τ × List Frame :=
  match ArpPacket.parse payload with
  | .error _ => (s, [])
  | .ok arp =>
    let waiting := s.drained arp.senderMac ethertypeIpv4 (s.pendingArpPackets.lookup arp.senderIp)
    let reply :=
      if arp.opcode = .request ∧ arp.targetIp = s.config.ip then
        [s.frameTo arp.senderMac ethertypeArp
          (ArpPacket.buildReply s.config.mac s.config.ip arp.senderMac arp.senderIp).serialize]
      else []
    ({ s with
      arpTable := s.arpTable.insert arp.senderIp arp.senderMac
      pendingArpPackets := s.pendingArpPackets.erase arp.senderIp }, waiting ++ reply)

/-- The frame of one answer of the transports. -/
def answer (s : NetStack τ) (reply : MacAddress × Outgoing) : NetStack τ × Frame :=
  let (s, ipId) := s.nextIpId
  (s, s.frameTo reply.1 ethertypeIpv4
    (Ipv4Packet.serialize reply.2.srcIp reply.2.dstIp reply.2.protocol ipId 64 reply.2.payload))

def answerAll (s : NetStack τ) : List (MacAddress × Outgoing) → NetStack τ × List Frame
  | [] => (s, [])
  | reply :: rest =>
    let first := s.answer reply
    let others := first.1.answerAll rest
    (others.1, first.2 :: others.2)

/-- The packet of a frame that passes the firewall. -/
def admittedIpv4 (s : NetStack τ) (payload : List UInt8) : Option Ipv4Packet :=
  match Ipv4Packet.parse payload true with
  | .error _ => none
  | .ok packet => if s.firewall.evaluate packet = .accept then some packet else none

def processIpv4 [Transports τ] (s : NetStack τ) (eth : EthernetFrame) : NetStack τ × List Frame :=
  match s.admittedIpv4 eth.payload with
  | none => (s, [])
  | some packet =>
    let s := { s with arpTable := s.arpTable.insert packet.header.srcIp eth.srcMac }
    if packet.header.dstIp ≠ s.config.ip ∧ packet.header.dstIp ≠ ⟨255, 255, 255, 255⟩ then (s, [])
    else
      let (transports, replies) :=
        Transports.receive s.transports s.config packet eth.srcMac s.currentTimeMs
      answerAll { s with transports } replies

/-! ### IPv6: which messages are looked at -/

/-- Neighbor Discovery is validated before anything else. Hosts discard solicitations of routers. -/
def validNdp (packet : Ipv6Packet) (icmp : Icmpv6Packet) : Bool :=
  let h := packet.header
  if icmp.msgType = icmpv6TypeNeighborSolicit then
    (icmp.validatedNeighborSolicitationTarget h.srcIp h.dstIp h.hopLimit).isSome
  else if icmp.msgType = icmpv6TypeNeighborAdvert then
    (icmp.validatedNeighborAdvertisementTarget h.dstIp h.hopLimit).isSome
  else if icmp.msgType = icmpv6TypeRouterSolicit then false
  else if icmp.msgType = icmpv6TypeRouterAdvert then
    (icmp.validatedRouterAdvertisement h.srcIp h.hopLimit).isSome
  else if icmp.msgType = icmpv6TypeRedirect then
    (icmp.validatedRedirect h.srcIp h.dstIp h.hopLimit).isSome
  else true

/-- The ICMPv6 message of a frame for this host, when there is one to look at. -/
def admittedIcmpv6 (s : NetStack τ) (payload : List UInt8) : Option (Ipv6Packet × Icmpv6Packet) :=
  match Ipv6Packet.parse payload with
  | .error _ => none
  | .ok packet =>
    if packet.header.nextHeader ≠ nextHeaderIcmpv6 then none
    else
      match Icmpv6Packet.parse packet.header.srcIp packet.header.dstIp packet.payload with
      | .error _ => none
      | .ok icmp =>
        if validNdp packet icmp ∧
            (packet.header.dstIp = s.myIp6 ∨ packet.header.dstIp.isMulticast) then
          some (packet, icmp)
        else none

/-! ### Packet Too Big, Redirect, echo -/

/-- The destination and the MTU that a Packet Too Big teaches this host. -/
def learnedPathMtu (s : NetStack τ) (icmp : Icmpv6Packet) : Option (Ipv6Address × ℕ) :=
  if icmp.code = 0 ∧ 44 ≤ icmp.payload.length ∧ (byteAt icmp.payload 4).toNat / 16 = 6 then
    let quotedSrc := ipv6At icmp.payload 12
    let quotedDst := ipv6At icmp.payload 28
    if s.config.ipv6 = some quotedSrc ∧ !quotedDst.isMulticast then
      some (quotedDst, max (longAt icmp.payload 0) 1280)
    else none
  else none

def processPacketTooBig (s : NetStack τ) (icmp : Icmpv6Packet) : NetStack τ :=
  match s.learnedPathMtu icmp with
  | none => s
  | some (dst, learned) =>
    let mtu := match s.ipv6PathMtuCache.lookup dst with
      | some current => min current learned
      | none => learned
    { s with ipv6PathMtuCache := s.ipv6PathMtuCache.insert dst mtu }

/-- The Redirect of a packet, when it comes from the first hop and quotes a packet of this host. -/
def acceptedRedirect (s : NetStack τ) (packet : Ipv6Packet) (icmp : Icmpv6Packet) :
    Option RedirectMessage :=
  (icmp.validatedRedirect packet.header.srcIp packet.header.dstIp packet.header.hopLimit).filter
    fun redirect =>
      s.ipv6RouteNextHop redirect.destination = packet.header.srcIp ∧
        redirect.redirectedSource = s.config.ipv6 ∧
        redirect.redirectedDestination = some redirect.destination

def processRedirect (s : NetStack τ) (packet : Ipv6Packet) (icmp : Icmpv6Packet) : NetStack τ :=
  match s.acceptedRedirect packet icmp with
  | none => s
  | some redirect =>
    { s with
      ndpTable := match redirect.targetLinkLayerAddress with
        | some mac => s.ndpTable.learnStale redirect.target mac
        | none => s.ndpTable
      ipv6RedirectCache :=
        s.ipv6RedirectCache.insert redirect.destination ⟨packet.header.srcIp, redirect.target⟩ }

def processEchoRequest (s : NetStack τ) (eth : EthernetFrame) (packet : Ipv6Packet)
    (icmp : Icmpv6Packet) : List Frame :=
  if 4 ≤ icmp.payload.length then
    let src := packet.header.srcIp
    [s.frameTo eth.srcMac ethertypeIpv6
      (Ipv6Packet.serialize s.myIp6 src nextHeaderIcmpv6 s.ipv6HopLimit
        (Icmpv6Packet.buildEchoReply s.myIp6 src icmp.payload))]
  else []

/-! ### Router Advertisement -/

def applyRaParameters (s : NetStack τ) (ra : RouterAdvertisement) : NetStack τ :=
  { s with
    ndpTable := s.ndpTable.applyRouterAdvertisementTimers ra.reachableTime ra.retransTimer
    ipv6HopLimit := if ra.currentHopLimit ≠ 0 then ra.currentHopLimit else s.ipv6HopLimit }

/-- The link MTU that an advertisement sets. -/
def linkMtuOf (ra : RouterAdvertisement) : Option ℕ :=
  ra.mtu.filter fun mtu => 1280 ≤ mtu ∧ mtu ≤ ipv6EthernetLinkMtu

/-- Queued packets that no longer fit are dropped, and queues left empty with them. -/
def shrinkQueues (queues : HashMap Ipv6Address (List (List UInt8))) (mtu : ℕ) :
    HashMap Ipv6Address (List (List UInt8)) :=
  Hashed.retain (fun _ queue => !queue.isEmpty)
    (Hashed.mapValues (fun queue => queue.filter fun packet => packet.length ≤ mtu) queues)

def applyRaMtu (s : NetStack τ) (ra : RouterAdvertisement) : NetStack τ :=
  match linkMtuOf ra with
  | none => s
  | some mtu =>
    { s with ipv6LinkMtu := mtu, pendingNdpPackets := shrinkQueues s.pendingNdpPackets mtu }

/-- A router that failed is probed again as soon as it is heard of. -/
def learnRaSource (s : NetStack τ) (router : Ipv6Address) (mac : Option MacAddress) : NetStack τ :=
  match mac with
  | none => s
  | some mac =>
    let ndpTable := s.ndpTable.learnStale router mac
    { s with
      ndpTable :=
        if router ∈ s.ipv6FailedRioRouters then
          (ndpTable.lookupForTransmit router s.currentTimeMs).1
        else ndpTable }

section ordered

variable [HashOrder]

/-- A `::/0` route option overrides the lifetime and the preference of the header. -/
def applyRaHeader (s : NetStack τ) (router : Ipv6Address) (ra : RouterAdvertisement) : NetStack τ :=
  if ra.routes.any fun route => route.prefixLength = 0 then
    selectIpv6DefaultRouter
      { s with ipv6DefaultRouters := s.ipv6DefaultRouters.filter fun c => c.1 ≠ router }
  else s.refreshSlaacDefaultRouter router ra.routerLifetime ra.preference

def applyRaRoutes (s : NetStack τ) (router : Ipv6Address) (routes : List RouteInformationOption) :
    NetStack τ :=
  routes.foldl (fun s route =>
    s.refreshIpv6RaRoute router route.address route.prefixLength route.preference
      route.routeLifetime) s

omit [HashOrder] in
def applyRaPrefixes (s : NetStack τ) (prefixes : List PrefixInformationOption) : NetStack τ :=
  (prefixes.filter fun p => p.onLink ∧ !p.address.isLinkLocal).foldl (fun s p =>
    s.refreshIpv6RaOnLinkPrefix p.address p.prefixLength p.validLifetime) s

/-- The address that an advertisement configures, with the option that does. -/
def autonomousAddress (s : NetStack τ) (ra : RouterAdvertisement) :
    Option (PrefixInformationOption × Ipv6Address) :=
  (ra.prefixes.find? fun p => p.autonomous ∧ p.prefixLength = 64).bind fun p =>
    (slaacAddress p.address p.prefixLength s.config.mac).map fun address => (p, address)

/-- The valid deadline of the configured address after an advertisement: the rule of two hours
protects an address that the advertisements configured. -/
def refreshedValidUntil (s : NetStack τ) (address : Ipv6Address) (validLifetime : ℕ) : Option ℕ :=
  match s.ipv6SlaacLifetimes.filter fun l => l.address = address with
  | some l => refreshedIpv6ValidDeadline s.currentTimeMs l.validUntilMs validLifetime
  | none => ipv6LifetimeDeadline s.currentTimeMs validLifetime

def applyRaAddress (s : NetStack τ) (ra : RouterAdvertisement) : NetStack τ × List Frame :=
  match s.autonomousAddress ra with
  | none => (s, [])
  | some (p, address) =>
    if s.config.ipv6 = some address then
      ({ s with
        ipv6SlaacLifetimes := some
          { address
            preferredUntilMs := ipv6LifetimeDeadline s.currentTimeMs p.preferredLifetime
            validUntilMs := s.refreshedValidUntil address p.validLifetime
            router := s.ipv6Gateway
            routerUntilMs := s.ipv6Gateway.bind fun r => (s.defaultRouterDeadline r).join } }, [])
    else
      let (s, probe) := s.startIpv6Dad address p.prefixLength s.ipv6Gateway p.preferredLifetime
        p.validLifetime ra.routerLifetime
      (s, probe.toList)

def processRouterAdvert (s : NetStack τ) (packet : Ipv6Packet) (icmp : Icmpv6Packet) :
    NetStack τ × List Frame :=
  match icmp.validatedRouterAdvertisement packet.header.srcIp packet.header.hopLimit with
  | none => (s, [])
  | some ra =>
    let router := packet.header.srcIp
    let s := (s.applyRaParameters ra).applyRaMtu ra
    let s := (s.learnRaSource router icmp.ndpSourceLinkLayerAddress).cancelRouterDiscovery
    let s := (s.applyRaHeader router ra).applyRaRoutes router ra.routes
    (s.applyRaPrefixes ra.prefixes).applyRaAddress ra

/-! ### Neighbor Solicitation and Advertisement -/

/-- Another host uses our tentative address. -/
def noticeDuplicate (s : NetStack τ) (eth : EthernetFrame) (target : Ipv6Address) : NetStack τ :=
  if eth.srcMac ≠ s.config.mac then s.markIpv6DadDuplicate target else s

/-- The address that a solicitation teaches. -/
def solicitationHint (packet : Ipv6Packet) (icmp : Icmpv6Packet) : Option MacAddress :=
  if packet.header.srcIp.isUnspecified then none else icmp.ndpSourceLinkLayerAddress

/-- The answer to a solicitation of our own address, or to a probe for it. -/
def advertise (s : NetStack τ) (eth : EthernetFrame) (packet : Ipv6Packet) : Frame :=
  let probe := packet.header.srcIp.isUnspecified
  let dst := if probe then .linkLocalAllNodes else packet.header.srcIp
  s.frameTo (if probe then ipv6MulticastMac dst else eth.srcMac) ethertypeIpv6
    (icmpv6Packet s.myIp6 dst
      (Icmpv6Packet.buildNeighborAdvertisement s.myIp6 dst s.myIp6 s.config.mac false
        (!probe) true))

def processNeighborSolicit (s : NetStack τ) (eth : EthernetFrame) (packet : Ipv6Packet)
    (icmp : Icmpv6Packet) : NetStack τ × List Frame :=
  match icmp.validatedNeighborSolicitationTarget packet.header.srcIp packet.header.dstIp
      packet.header.hopLimit with
  | none => (s, [])
  | some target =>
    let s := match solicitationHint packet icmp with
      | some mac => { s with ndpTable := s.ndpTable.learnStale packet.header.srcIp mac }
      | none => s
    let s := s.noticeDuplicate eth target
    (s, if target = s.myIp6 then [s.advertise eth packet] else [])

/-- What an advertisement does to a cached neighbor. -/
def refreshNeighbor (s : NetStack τ) (icmp : Icmpv6Packet) (target : Ipv6Address)
    (current : MacAddress) : NetStack τ :=
  let advertised := icmp.neighborAdvertisementTargetLinkLayerAddress
  if (advertised.any fun mac => mac ≠ current) ∧ !icmp.overrideFlag then
    { s with ndpTable := s.ndpTable.demoteReachablePreservingMac target }
  else
    let selected := advertised.getD current
    if icmp.solicitedFlag then
      { s with ndpTable := s.ndpTable.confirmReachable target selected s.currentTimeMs }
    else if selected ≠ current then { s with ndpTable := s.ndpTable.markStale target selected }
    else s

/-- What is known of a default router has changed. -/
def reconsiderRouter (s : NetStack τ) (target : Ipv6Address) : NetStack τ :=
  if (s.defaultRouterDeadline target).isSome then s.selectIpv6DefaultRouter else s

/-- A cached neighbor that is no router any more leaves the default routers. -/
def refreshRouterFlag (s : NetStack τ) (icmp : Icmpv6Packet) (target : Ipv6Address) : NetStack τ :=
  if !icmp.routerFlag then s.refreshSlaacDefaultRouter target 0 .medium
  else s.reconsiderRouter target

/-- The address that was asked for arrives, and what waited for it leaves. -/
def resolveNeighbor (s : NetStack τ) (icmp : Icmpv6Packet) (target : Ipv6Address)
    (mac : MacAddress) : NetStack τ × List Frame :=
  let s := { s with
    ndpTable :=
      if icmp.solicitedFlag then s.ndpTable.confirmReachable target mac s.currentTimeMs
      else s.ndpTable.markStale target mac }
  let s := if icmp.routerFlag then s.reconsiderRouter target else s
  ({ s with pendingNdpPackets := s.pendingNdpPackets.erase target },
    s.drained mac ethertypeIpv6 (s.pendingNdpPackets.lookup target))

/-- Confirmed routers leave their quarantine, and the routes are chosen anew. -/
def finishAdvert (s : NetStack τ) (icmp : Icmpv6Packet) (target : Ipv6Address) : NetStack τ :=
  reselectIpv6RaRoutes
    (if icmp.solicitedFlag ∧ s.ndpTable.state target = some .reachable then
      { s with ipv6FailedRioRouters := s.ipv6FailedRioRouters.erase target }
    else s)

def processNeighborAdvert (s : NetStack τ) (eth : EthernetFrame) (packet : Ipv6Packet)
    (icmp : Icmpv6Packet) : NetStack τ × List Frame :=
  match icmp.validatedNeighborAdvertisementTarget packet.header.dstIp packet.header.hopLimit with
  | none => (s, [])
  | some target =>
    let s := s.noticeDuplicate eth target
    match s.ndpTable.lookup target with
    | some current =>
      (((s.refreshNeighbor icmp target current).refreshRouterFlag icmp target).finishAdvert
        icmp target, [])
    | none =>
      if Hashed.hasKey s.pendingNdpPackets target then
        match icmp.neighborAdvertisementTargetLinkLayerAddress with
        | none => (s, [])
        | some mac =>
          let (s, frames) := s.resolveNeighbor icmp target mac
          (s.finishAdvert icmp target, frames)
      else (s.finishAdvert icmp target, [])

/-! ### Frames -/

def processIpv6 (s : NetStack τ) (eth : EthernetFrame) : NetStack τ × List Frame :=
  match s.admittedIcmpv6 eth.payload with
  | none => (s, [])
  | some (packet, icmp) =>
    if icmp.msgType = icmpv6TypePacketTooBig then (s.processPacketTooBig icmp, [])
    else if icmp.msgType = icmpv6TypeRedirect then (s.processRedirect packet icmp, [])
    else if icmp.msgType = icmpv6TypeRouterAdvert then s.processRouterAdvert packet icmp
    else if icmp.msgType = icmpv6TypeEchoRequest then (s, s.processEchoRequest eth packet icmp)
    else if icmp.msgType = icmpv6TypeNeighborSolicit then s.processNeighborSolicit eth packet icmp
    else if icmp.msgType = icmpv6TypeNeighborAdvert then s.processNeighborAdvert eth packet icmp
    else (s, [])

/-- A frame for this host or for a group. -/
def acceptedFrame (s : NetStack τ) (raw : Frame) : Option EthernetFrame :=
  (EthernetFrame.parse raw).filter fun eth =>
    eth.dstMac.isBroadcast ∨ eth.dstMac.isMulticast ∨ eth.dstMac = s.config.mac

def processFrame [Transports τ] (s : NetStack τ) (raw : Frame) : NetStack τ × List Frame :=
  match s.acceptedFrame raw with
  | none => (s, [])
  | some eth =>
    match eth.ethertype with
    | .arp => s.processArp eth.payload
    | .ipv4 => s.processIpv4 eth
    | .ipv6 => s.processIpv6 eth
    | _ => (s, [])

end ordered

/-! ### What receiving does apart from selection -/

namespace Core

variable (c : Core)

def learnIp (src : Ipv4Address) (mac : MacAddress) : Core :=
  { c with arpTable := c.arpTable.insert src mac }

/-- The neighbor cache of an advertisement's parameters and source. -/
def raNdpTable (failed : Bool) (router : Ipv6Address) (mac : Option MacAddress)
    (ra : RouterAdvertisement) : NdpTable :=
  let t := c.ndpTable.applyRouterAdvertisementTimers ra.reachableTime ra.retransTimer
  match mac with
  | none => t
  | some mac =>
    if failed then ((t.learnStale router mac).lookupForTransmit router c.time).1
    else t.learnStale router mac

def applyRaMtu (ra : RouterAdvertisement) : Core :=
  match linkMtuOf ra with
  | none => c
  | some mtu => { c with linkMtu := mtu, pendingNdp := shrinkQueues c.pendingNdp mtu }

def applyRaRoutes (router : Ipv6Address) (routes : List RouteInformationOption) : Core :=
  { c with
    raRoutes := routes.foldl (fun m route =>
      refreshedRaRoutes m (raRouteKey router route.address route.prefixLength) c.time
        route.preference route.routeLifetime) c.raRoutes }

def autonomousAddress (ra : RouterAdvertisement) : Option (PrefixInformationOption × Ipv6Address) :=
  (ra.prefixes.find? fun p => p.autonomous ∧ p.prefixLength = 64).bind fun p =>
    (slaacAddress p.address p.prefixLength c.config.mac).map fun address => (p, address)

def refreshedValidUntil (address : Ipv6Address) (validLifetime : ℕ) : Option ℕ :=
  match c.slaac.filter fun l => l.1 = address with
  | some (_, _, valid) => refreshedIpv6ValidDeadline c.time valid validLifetime
  | none => ipv6LifetimeDeadline c.time validLifetime

def applyRaAddress (ra : RouterAdvertisement) : Core :=
  match c.autonomousAddress ra with
  | none => c
  | some (p, address) =>
    if c.config.ipv6 = some address then
      { c with
        slaac := some (address, ipv6LifetimeDeadline c.time p.preferredLifetime,
          c.refreshedValidUntil address p.validLifetime) }
    else c.startDad address p.prefixLength p.preferredLifetime p.validLifetime

theorem startDad_eq (address : Ipv6Address) (len preferredLifetime validLifetime : ℕ) :
    ∃ slaac dad, c.startDad address len preferredLifetime validLifetime =
      { c with slaac := slaac, dad := dad } := by
  unfold startDad
  dsimp only
  split
  · exact ⟨c.slaac, c.dad, rfl⟩
  · split
    · exact ⟨_, c.dad, rfl⟩
    · split <;> exact ⟨c.slaac, _, rfl⟩

/-- An address option changes lifetimes only. -/
theorem applyRaAddress_eq (ra : RouterAdvertisement) :
    ∃ slaac dad, c.applyRaAddress ra = { c with slaac := slaac, dad := dad } := by
  unfold applyRaAddress
  split
  · exact ⟨c.slaac, c.dad, rfl⟩
  · split
    · exact ⟨_, c.dad, rfl⟩
    · exact c.startDad_eq _ _ _ _

theorem lookup_raNdpTable (failed : Bool) (router : Ipv6Address) (mac : Option MacAddress)
    (ra : RouterAdvertisement) (a : Ipv6Address) :
    (c.raNdpTable failed router mac ra).lookup a =
      if a = router ∧ mac.isSome then mac else c.ndpTable.lookup a := by
  unfold raNdpTable
  cases mac with
  | none => simp
  | some mac =>
    simp only [Option.isSome_some, and_true]
    split
    · rw [NdpTable.lookup_lookupForTransmit, NdpTable.lookup_learnStale]
      rfl
    · rw [NdpTable.lookup_learnStale]
      rfl

/-- What a valid advertisement does. -/
def advertised (failed : Bool) (router : Ipv6Address) (mac : Option MacAddress)
    (ra : RouterAdvertisement) : Core :=
  ((({ c with ndpTable := c.raNdpTable failed router mac ra } : Core).applyRaMtu ra).applyRaRoutes
    router ra.routes).applyRaAddress ra

end Core

section core

variable (s : NetStack τ)

@[simp] theorem core_answerAll (replies : List (MacAddress × Outgoing)) :
    (s.answerAll replies).1.core = s.core := by
  induction replies generalizing s with
  | nil => rfl
  | cons reply rest ih => exact ih _

theorem core_processArp {payload : List UInt8} {arp : ArpPacket}
    (h : ArpPacket.parse payload = .ok arp) :
    (s.processArp payload).1.core =
      { s.core.learnIp arp.senderIp arp.senderMac with
        pendingArp := s.core.pendingArp.erase arp.senderIp } := by
  unfold processArp
  rw [h]
  rfl

theorem core_processIpv4 [Transports τ] {eth : EthernetFrame} {packet : Ipv4Packet}
    (h : s.admittedIpv4 eth.payload = some packet) :
    (s.processIpv4 eth).1.core = s.core.learnIp packet.header.srcIp eth.srcMac := by
  unfold processIpv4
  rw [h]
  dsimp only
  split
  · rfl
  · exact core_answerAll _ _

theorem core_processPacketTooBig (icmp : Icmpv6Packet) :
    (s.processPacketTooBig icmp).core =
      match s.learnedPathMtu icmp with
      | none => s.core
      | some (dst, learned) =>
        { s.core with
          pathMtuCache := s.core.pathMtuCache.insert dst
            (((s.core.pathMtuCache.lookup dst).map fun current =>
              min current learned).getD learned) } := by
  unfold processPacketTooBig
  split
  · rfl
  · rename_i dst learned _
    cases h : s.ipv6PathMtuCache.lookup dst <;> simp [core, h]

theorem core_processRedirect (packet : Ipv6Packet) (icmp : Icmpv6Packet) :
    (s.processRedirect packet icmp).core =
      match s.acceptedRedirect packet icmp with
      | none => s.core
      | some redirect =>
        { s.core with
          ndpTable := match redirect.targetLinkLayerAddress with
            | some mac => s.core.ndpTable.learnStale redirect.target mac
            | none => s.core.ndpTable } := by
  unfold processRedirect
  split <;> rfl

theorem core_noticeDuplicate (eth : EthernetFrame) (target : Ipv6Address) :
    (s.noticeDuplicate eth target).core =
      if eth.srcMac ≠ s.config.mac then s.core.markDuplicate target else s.core := by
  unfold noticeDuplicate
  split
  · exact core_markIpv6DadDuplicate s target
  · rfl

/-! The steps of an advertisement. -/

variable [HashOrder]

@[simp] theorem core_applyRaHeader (router : Ipv6Address) (ra : RouterAdvertisement) :
    (s.applyRaHeader router ra).core = s.core := by
  unfold applyRaHeader
  split
  · exact core_selectIpv6DefaultRouter _
  · exact core_refreshSlaacDefaultRouter s router _ _

theorem core_applyRaRoutes (router : Ipv6Address) (routes : List RouteInformationOption) :
    (s.applyRaRoutes router routes).core = s.core.applyRaRoutes router routes := by
  unfold applyRaRoutes Core.applyRaRoutes
  induction routes generalizing s with
  | nil => rfl
  | cons route rest ih =>
    rw [List.foldl_cons, ih, core_refreshIpv6RaRoute]
    rfl

omit [HashOrder] in
@[simp] theorem core_applyRaPrefixes (prefixes : List PrefixInformationOption) :
    (s.applyRaPrefixes prefixes).core = s.core := by
  unfold applyRaPrefixes
  induction prefixes.filter _ generalizing s with
  | nil => rfl
  | cons p rest ih => exact (ih _).trans (core_refreshIpv6RaOnLinkPrefix s _ _ _)

theorem core_applyRaAddress (ra : RouterAdvertisement) :
    (s.applyRaAddress ra).1.core = s.core.applyRaAddress ra := by
  have hfind : s.core.autonomousAddress ra = s.autonomousAddress ra := rfl
  unfold applyRaAddress Core.applyRaAddress
  rw [hfind]
  split
  · rfl
  · rename_i p address _
    by_cases h : s.config.ipv6 = some address
    · rw [if_pos h, if_pos (show s.core.config.ipv6 = some address from h)]
      simp only [core, Core.refreshedValidUntil, refreshedValidUntil, Core.mk.injEq]
      cases hl : s.ipv6SlaacLifetimes with
      | none => simp [Ipv6SlaacLifetimes.terms]
      | some l =>
        by_cases ha : l.address = address <;>
          simp [Ipv6SlaacLifetimes.terms, ha, Option.filter]
    · rw [if_neg h, if_neg (show s.core.config.ipv6 ≠ some address from h)]
      exact core_startIpv6Dad s address _ _ _ _ _

omit [HashOrder] in
theorem core_learnRaSource_applyRaMtu (router : Ipv6Address) (mac : Option MacAddress)
    (ra : RouterAdvertisement) :
    (((s.applyRaParameters ra).applyRaMtu ra).learnRaSource router mac).core =
      ({ s.core with
        ndpTable := s.core.raNdpTable (router ∈ s.ipv6FailedRioRouters) router mac ra } :
        Core).applyRaMtu
          ra := by
  unfold applyRaMtu Core.applyRaMtu
  cases mac with
  | none => split <;> rfl
  | some mac =>
    simp only [learnRaSource, Core.raNdpTable, decide_eq_true_eq]
    split <;> rfl

theorem core_processRouterAdvert (packet : Ipv6Packet) (icmp : Icmpv6Packet) :
    (s.processRouterAdvert packet icmp).1.core =
      match icmp.validatedRouterAdvertisement packet.header.srcIp packet.header.hopLimit with
      | none => s.core
      | some ra =>
        s.core.advertised (packet.header.srcIp ∈ s.ipv6FailedRioRouters) packet.header.srcIp
          icmp.ndpSourceLinkLayerAddress ra := by
  unfold processRouterAdvert Core.advertised
  split
  · rfl
  · rw [core_applyRaAddress, core_applyRaPrefixes, core_applyRaRoutes, core_applyRaHeader,
      core_cancelRouterDiscovery, core_learnRaSource_applyRaMtu]

/-! The steps of a neighbor's messages. -/

omit [HashOrder] in
theorem core_processNeighborSolicit (eth : EthernetFrame) (packet : Ipv6Packet)
    (icmp : Icmpv6Packet) :
    (s.processNeighborSolicit eth packet icmp).1.core =
      match icmp.validatedNeighborSolicitationTarget packet.header.srcIp packet.header.dstIp
        packet.header.hopLimit with
      | none => s.core
      | some target =>
        let c : Core := match solicitationHint packet icmp with
          | some mac =>
            { s.core with ndpTable := s.core.ndpTable.learnStale packet.header.srcIp mac }
          | none => s.core
        if eth.srcMac ≠ s.config.mac then c.markDuplicate target else c := by
  unfold processNeighborSolicit
  split
  · rfl
  · dsimp only
    rw [core_noticeDuplicate]
    split <;> rfl

theorem core_reconsiderRouter (target : Ipv6Address) :
    (s.reconsiderRouter target).core = s.core := by
  unfold reconsiderRouter
  split
  · exact core_selectIpv6DefaultRouter s
  · rfl

theorem core_refreshRouterFlag (icmp : Icmpv6Packet) (target : Ipv6Address) :
    (s.refreshRouterFlag icmp target).core = s.core := by
  unfold refreshRouterFlag
  split
  · exact core_refreshSlaacDefaultRouter s _ _ _
  · exact core_reconsiderRouter s target

theorem core_finishAdvert (icmp : Icmpv6Packet) (target : Ipv6Address) :
    (s.finishAdvert icmp target).core = s.core := by
  rw [finishAdvert, core_reselectIpv6RaRoutes]
  split <;> rfl

/-- `t'` knows of `target` and otherwise what `t` knows. -/
def LearnedOf (t t' : NdpTable) (target : Ipv6Address) (mac : MacAddress) : Prop :=
  ∀ a, t'.lookup a = if a = target then some mac else t.lookup a

omit [HashOrder] in
theorem core_refreshNeighbor (icmp : Icmpv6Packet) {target : Ipv6Address} {current : MacAddress}
    (h : s.ndpTable.lookup target = some current) :
    ∃ t mac, LearnedOf s.ndpTable t target mac ∧
      (s.refreshNeighbor icmp target current).core = { s.core with ndpTable := t } := by
  have hsame : LearnedOf s.ndpTable s.ndpTable target current := by
    intro a
    split
    · rename_i ha
      rw [ha, h]
    · rfl
  unfold refreshNeighbor
  dsimp only
  split
  · refine ⟨_, current, fun a => ?_, rfl⟩
    rw [NdpTable.lookup_demote]
    exact hsame a
  · split
    · exact ⟨_, _, NdpTable.lookup_confirmReachable _ _ _ _, rfl⟩
    · split
      · exact ⟨_, _, NdpTable.lookup_markStale _ _ _, rfl⟩
      · exact ⟨_, _, hsame, rfl⟩

omit [HashOrder] in
theorem lookup_resolved (t : NdpTable) (icmp : Icmpv6Packet) (target : Ipv6Address)
    (mac : MacAddress) (now : ℕ) :
    LearnedOf t (if icmp.solicitedFlag then t.confirmReachable target mac now
      else t.markStale target mac) target mac := by
  split
  · exact NdpTable.lookup_confirmReachable t target mac now
  · exact NdpTable.lookup_markStale t target mac

theorem core_resolveNeighbor (icmp : Icmpv6Packet) (target : Ipv6Address) (mac : MacAddress) :
    (∃ t, LearnedOf s.ndpTable t target mac ∧ (s.resolveNeighbor icmp target mac).1.core =
      { s.core with ndpTable := t, pendingNdp := s.core.pendingNdp.erase target }) ∧
      (s.resolveNeighbor icmp target mac).2 =
        s.drained mac ethertypeIpv6 (s.pendingNdpPackets.lookup target) := by
  have hcore : ∀ r : NetStack τ,
      (if icmp.routerFlag then r.reconsiderRouter target else r).core = r.core := by
    intro r
    split
    · exact core_reconsiderRouter r target
    · rfl
  have h := hcore { s with ndpTable := if icmp.solicitedFlag then
    s.ndpTable.confirmReachable target mac s.currentTimeMs else s.ndpTable.markStale target mac }
  unfold resolveNeighbor
  dsimp only
  generalize (if icmp.routerFlag then _ else _ : NetStack τ) = r at h ⊢
  refine ⟨⟨_, lookup_resolved s.ndpTable icmp target mac s.currentTimeMs, ?_⟩, ?_⟩
  · change ({ r.core with pendingNdp := r.core.pendingNdp.erase target } : Core) = _
    rw [h]
    rfl
  · change (r.core.pendingNdp.lookup target |>.getD []).map
      (EthernetFrame.serialize mac r.core.config.mac ethertypeIpv6) = _
    rw [h]
    rfl

/-- The three things an advertisement can do: refresh a neighbor, resolve one, or nothing here. -/
theorem core_processNeighborAdvert (eth : EthernetFrame) {packet : Ipv6Packet} {icmp : Icmpv6Packet}
    {target : Ipv6Address} (h : icmp.validatedNeighborAdvertisementTarget packet.header.dstIp
      packet.header.hopLimit = some target) :
    let c := (s.noticeDuplicate eth target).core
    let out := s.processNeighborAdvert eth packet icmp
    (∃ t mac, LearnedOf c.ndpTable t target mac ∧ (c.ndpTable.lookup target).isSome ∧
      out.1.core = { c with ndpTable := t } ∧ out.2 = []) ∨
    (∃ t mac, LearnedOf c.ndpTable t target mac ∧
      out.1.core = { c with ndpTable := t, pendingNdp := c.pendingNdp.erase target } ∧
      out.2 = s.drained mac ethertypeIpv6 (c.pendingNdp.lookup target)) ∨
    (out.1.core = c ∧ out.2 = []) := by
  have hmac : (s.noticeDuplicate eth target).config.mac = s.config.mac := by
    have := core_noticeDuplicate s eth target
    have hc := congrArg (fun c : Core => c.config.mac) this
    simp only [core] at hc
    rw [hc]
    split <;> rfl
  unfold processNeighborAdvert
  rw [h]
  dsimp only
  generalize s.noticeDuplicate eth target = r at hmac
  split
  · rename_i current hcurrent
    obtain ⟨t, mac, ht, hcore⟩ := core_refreshNeighbor r icmp hcurrent
    refine .inl ⟨t, mac, ht, ?_, ?_, rfl⟩
    · simp [core, hcurrent]
    · rw [core_finishAdvert, core_refreshRouterFlag, hcore]
  · split
    · split
      · exact .inr (.inr ⟨rfl, rfl⟩)
      · rename_i mac _
        obtain ⟨⟨t, ht, hcore⟩, hout⟩ := core_resolveNeighbor r icmp target mac
        refine .inr (.inl ⟨t, mac, ht, ?_, ?_⟩)
        · rw [core_finishAdvert, hcore]
        · rw [hout]
          simp [drained, frameTo, hmac, core]
    · exact .inr (.inr ⟨core_finishAdvert r icmp target, rfl⟩)

end core

end ToyTcpip.NetStack
