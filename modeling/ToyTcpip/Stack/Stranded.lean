import ToyTcpip.Stack.Runs

/-! Packets that wait for an address, and the addresses that are known. -/
namespace ToyTcpip.NetStack

open Hashed (HashMap HashOrder)

variable {τ : Type}

/-! ### Queues -/

section queues

variable {κ : Type} [DecidableEq κ] {queues : HashMap κ (List (List UInt8))} {k k' : κ}
  {packet : List UInt8}

def waiting (queues : HashMap κ (List (List UInt8))) (k : κ) : List (List UInt8) :=
  (queues.lookup k).getD []

theorem waiting_enqueue : waiting (enqueue queues k packet) k' =
    if k' = k then waiting queues k ++ [packet] else waiting queues k' := by
  unfold waiting enqueue
  rw [Hashed.lookup_insert_of]
  split <;> rfl

theorem waiting_erase :
    waiting (AList.erase k queues) k' = if k' = k then [] else waiting queues k' := by
  unfold waiting
  rw [Hashed.lookup_erase_of]
  split <;> rfl

@[simp] theorem waiting_empty : waiting (∅ : HashMap κ (List (List UInt8))) k = [] := rfl

theorem mem_waiting_enqueue {p : List UInt8} (h : p ∈ waiting queues k') :
    p ∈ waiting (enqueue queues k packet) k' := by
  rw [waiting_enqueue]
  split
  · rename_i hk
    rw [← hk]
    exact List.mem_append_left _ h
  · exact h

theorem waiting_shrinkQueues {queues : HashMap Ipv6Address (List (List UInt8))} {mtu : ℕ}
    {k : Ipv6Address} :
    waiting (shrinkQueues queues mtu) k =
      (waiting queues k).filter fun packet => packet.length ≤ mtu := by
  unfold waiting shrinkQueues
  rw [Hashed.lookup_retain, Hashed.lookup_mapValues]
  cases queues.lookup k with
  | none => rfl
  | some queue =>
    rw [Option.map_some, Option.filter_some]
    split
    · rfl
    · rename_i h
      simpa using h

end queues

/-! ### What an address is learned from -/

/-- The address that a message teaches other than by answering a solicitation of this host. -/
def taughtNeighbor (s : NetStack τ) (packet : Ipv6Packet) (icmp : Icmpv6Packet) :
    Option Ipv6Address :=
  let h := packet.header
  if icmp.msgType = icmpv6TypeRedirect then
    (s.acceptedRedirect packet icmp).bind fun redirect =>
      redirect.targetLinkLayerAddress.map fun _ => redirect.target
  else if icmp.msgType = icmpv6TypeRouterAdvert then
    (icmp.validatedRouterAdvertisement h.srcIp h.hopLimit).bind fun _ =>
      icmp.ndpSourceLinkLayerAddress.map fun _ => h.srcIp
  else if icmp.msgType = icmpv6TypeNeighborSolicit then
    (icmp.validatedNeighborSolicitationTarget h.srcIp h.dstIp h.hopLimit).bind fun _ =>
      (solicitationHint packet icmp).map fun _ => h.srcIp
  else none

/-- The packets that wait once a message has set the link MTU. -/
def queuesUnder (s : NetStack τ) (packet : Ipv6Packet) (icmp : Icmpv6Packet) :
    HashMap Ipv6Address (List (List UInt8)) :=
  match (icmp.validatedRouterAdvertisement packet.header.srcIp packet.header.hopLimit).bind
      linkMtuOf with
  | some mtu => shrinkQueues s.pendingNdpPackets mtu
  | none => s.pendingNdpPackets

/-- No packet waits for the address that a frame teaches without being its resolution: the source of
an IPv4 packet, the source of a solicitation or of a Router Advertisement, the target of a
Redirect. -/
def TeachesNoneWaiting (s : NetStack τ) (raw : Frame) : Prop :=
  ∀ eth ∈ s.acceptedFrame raw,
    (eth.ethertype = .ipv4 → ∀ packet ∈ s.admittedIpv4 eth.payload,
      waiting s.pendingArpPackets packet.header.srcIp = []) ∧
    (eth.ethertype = .ipv6 → ∀ m ∈ s.admittedIcmpv6 eth.payload,
      ∀ a ∈ s.taughtNeighbor m.1 m.2, waiting (s.queuesUnder m.1 m.2) a = [])

instance (s : NetStack τ) (raw : Frame) : Decidable (s.TeachesNoneWaiting raw) :=
  inferInstanceAs (Decidable (∀ eth ∈ s.acceptedFrame raw, _))

def Call.TeachesNoneWaiting (s : NetStack τ) : Call τ → Prop
  | .processFrame raw => s.TeachesNoneWaiting raw
  | _ => True

/-! ### No packet waits for an address that is known -/

structure Core.Unstranded (c : Core) : Prop where
  arp : ∀ nextHop, waiting c.pendingArp nextHop ≠ [] → c.arpTable.lookup nextHop = none
  ndp : ∀ nextHop, waiting c.pendingNdp nextHop ≠ [] → c.ndpTable.lookup nextHop = none

namespace Core

variable {c : Core}

theorem Unstranded.sendIp (h : c.Unstranded) (nextHop : Ipv4Address) (bytes : List UInt8) :
    (c.sendIp nextHop bytes).Unstranded := by
  unfold Core.sendIp
  split
  · exact h
  · rename_i hnone
    refine ⟨fun k hk => ?_, h.ndp⟩
    by_cases he : k = nextHop
    · simpa [he] using hnone
    · exact h.arp k (by simpa [waiting_enqueue, he] using hk)

theorem Unstranded.sendIp6 (h : c.Unstranded) (nextHop : Ipv6Address) (bytes : List UInt8) :
    (c.sendIp6 nextHop bytes).Unstranded := by
  refine ⟨h.arp, fun k hk => ?_⟩
  unfold Core.sendIp6 at hk ⊢
  rw [NdpTable.lookup_lookupForTransmit]
  dsimp only at hk
  split at hk
  · exact h.ndp k hk
  · rename_i hnone
    by_cases he : k = nextHop
    · simpa [he] using hnone
    · exact h.ndp k (by simpa [waiting_enqueue, he] using hk)

theorem Unstranded.learnIp (h : c.Unstranded) {src : Ipv4Address} (mac : MacAddress)
    (hsrc : waiting c.pendingArp src = []) : (c.learnIp src mac).Unstranded := by
  refine ⟨fun k hk => ?_, h.ndp⟩
  have hne : k ≠ src := by
    rintro rfl
    exact hk hsrc
  rw [Core.learnIp, ArpTable.lookup_insert, if_neg hne]
  exact h.arp k hk

theorem Unstranded.resolveIp (h : c.Unstranded) (src : Ipv4Address) (mac : MacAddress) :
    ({ c.learnIp src mac with pendingArp := c.pendingArp.erase src } : Core).Unstranded := by
  refine ⟨fun k hk => ?_, h.ndp⟩
  dsimp only at hk
  rw [waiting_erase] at hk
  split at hk
  · exact (hk rfl).elim
  · rename_i hne
    simp only [Core.learnIp]
    rw [ArpTable.lookup_insert, if_neg hne]
    exact h.arp k hk

/-- Nothing is learned of an address that is waited for. -/
theorem Unstranded.ndpTable (h : c.Unstranded) {t : NdpTable}
    (ht : ∀ a, waiting c.pendingNdp a ≠ [] → t.lookup a = none ∨ t.lookup a = c.ndpTable.lookup a) :
    ({ c with ndpTable := t } : Core).Unstranded := by
  refine ⟨h.arp, fun k hk => ?_⟩
  rcases ht k hk with hnone | hsame
  · exact hnone
  · rw [← h.ndp k hk]
    exact hsame

theorem Unstranded.learn (h : c.Unstranded) {t : NdpTable} {a : Ipv6Address} {mac : MacAddress}
    (ht : LearnedOf c.ndpTable t a mac) (ha : waiting c.pendingNdp a = []) :
    ({ c with ndpTable := t } : Core).Unstranded := by
  refine h.ndpTable fun k hk => .inr ?_
  have hne : k ≠ a := by
    rintro rfl
    exact hk ha
  rw [ht k, if_neg hne]

theorem Unstranded.resolve (h : c.Unstranded) {t : NdpTable} {a : Ipv6Address} {mac : MacAddress}
    (ht : LearnedOf c.ndpTable t a mac) :
    ({ c with ndpTable := t, pendingNdp := c.pendingNdp.erase a } : Core).Unstranded := by
  refine ⟨h.arp, fun k hk => ?_⟩
  dsimp only at hk ⊢
  rw [waiting_erase] at hk
  split at hk
  · exact (hk rfl).elim
  · rename_i hne
    rw [ht k, if_neg hne]
    exact h.ndp k hk

/-- The rest of the state does not matter. -/
theorem Unstranded.congr {c' : Core} (h : c.Unstranded) (harp : c'.arpTable = c.arpTable)
    (hndp : c'.ndpTable = c.ndpTable) (hparp : c'.pendingArp = c.pendingArp)
    (hpndp : c'.pendingNdp = c.pendingNdp) : c'.Unstranded := by
  refine ⟨?_, ?_⟩
  · rw [harp, hparp]
    exact h.arp
  · rw [hndp, hpndp]
    exact h.ndp

theorem Unstranded.advertised (h : c.Unstranded) (failed : Bool) (router : Ipv6Address)
    (mac : Option MacAddress) (ra : RouterAdvertisement)
    (hmac : mac.isSome → waiting (c.applyRaMtu ra).pendingNdp router = []) :
    (c.advertised failed router mac ra).Unstranded := by
  obtain ⟨slaac, dad, heq⟩ := Core.applyRaAddress_eq ((({ c with
    ndpTable := c.raNdpTable failed router mac ra } :
    Core).applyRaMtu ra).applyRaRoutes router ra.routes) ra
  have hmtu : (({ c with ndpTable := c.raNdpTable failed router mac ra } : Core).applyRaMtu
      ra).Unstranded := by
    have hne : ∀ k, waiting (c.applyRaMtu ra).pendingNdp k ≠ [] →
        ¬(k = router ∧ mac.isSome) ∧ waiting c.pendingNdp k ≠ [] := by
      intro k hk
      refine ⟨?_, ?_⟩
      · rintro ⟨rfl, hsome⟩
        exact hk (hmac hsome)
      · intro hnil
        apply hk
        unfold Core.applyRaMtu
        split
        · exact hnil
        · rw [waiting_shrinkQueues, hnil]
          rfl
    refine ⟨?_, fun k hk => ?_⟩
    · unfold Core.applyRaMtu
      split <;> exact h.arp
    · have hk' : waiting (c.applyRaMtu ra).pendingNdp k ≠ [] := by
        unfold Core.applyRaMtu at hk ⊢
        split at hk <;> exact hk
      have hlookup : (({ c with ndpTable := c.raNdpTable failed router mac ra } : Core).applyRaMtu
          ra).ndpTable = c.raNdpTable failed router mac ra := by
        unfold Core.applyRaMtu
        split <;> rfl
      obtain ⟨hrouter, hwait⟩ := hne k hk'
      rw [hlookup, Core.lookup_raNdpTable, if_neg hrouter]
      exact h.ndp k hwait
  unfold Core.advertised
  rw [heq]
  exact hmtu.congr rfl rfl rfl rfl

theorem Unstranded.completeDad (h : c.Unstranded) (now : ℕ) : (c.completeDad now).Unstranded := by
  unfold Core.completeDad
  split
  · exact h
  · split <;> exact h.congr rfl rfl rfl rfl

end Core

section frames

variable [HashOrder] {s : NetStack τ} {eth : EthernetFrame} {packet : Ipv6Packet}
  {icmp : Icmpv6Packet}

omit [HashOrder] in
theorem unstranded_noticeDuplicate (h : s.core.Unstranded) (target : Ipv6Address) :
    (s.noticeDuplicate eth target).core.Unstranded := by
  rw [core_noticeDuplicate]
  split
  · exact h.congr rfl rfl rfl rfl
  · exact h

omit [HashOrder] in
theorem unstranded_processArp (h : s.core.Unstranded) (payload : List UInt8) :
    (s.processArp payload).1.core.Unstranded := by
  cases harp : ArpPacket.parse payload with
  | error e =>
    unfold processArp
    rw [harp]
    exact h
  | ok arp =>
    rw [core_processArp s harp]
    exact h.resolveIp arp.senderIp arp.senderMac

omit [HashOrder] in
theorem unstranded_processIpv4 [Transports τ] (h : s.core.Unstranded)
    (hteach : ∀ packet ∈ s.admittedIpv4 eth.payload,
      waiting s.pendingArpPackets packet.header.srcIp = []) :
    (s.processIpv4 eth).1.core.Unstranded := by
  cases hpacket : s.admittedIpv4 eth.payload with
  | none =>
    unfold processIpv4
    rw [hpacket]
    exact h
  | some packet =>
    rw [core_processIpv4 s hpacket]
    exact h.learnIp eth.srcMac (hteach packet hpacket)

omit [HashOrder] in
theorem unstranded_processRedirect (h : s.core.Unstranded)
    (htype : icmp.msgType = icmpv6TypeRedirect)
    (hteach : ∀ a ∈ s.taughtNeighbor packet icmp, waiting s.pendingNdpPackets a = []) :
    (s.processRedirect packet icmp).core.Unstranded := by
  rw [core_processRedirect]
  split
  · exact h
  · rename_i redirect hredirect
    dsimp only
    split
    · rename_i mac hmac
      refine h.learn (NdpTable.lookup_learnStale _ _ _) (hteach _ ?_)
      simp [taughtNeighbor, htype, hredirect, hmac]
    · exact h

theorem unstranded_processRouterAdvert (h : s.core.Unstranded)
    (htype : icmp.msgType = icmpv6TypeRouterAdvert)
    (hteach : ∀ a ∈ s.taughtNeighbor packet icmp, waiting (s.queuesUnder packet icmp) a = []) :
    (s.processRouterAdvert packet icmp).1.core.Unstranded := by
  rw [core_processRouterAdvert]
  split
  · exact h
  · rename_i ra hra
    refine h.advertised _ _ _ ra fun hsome => ?_
    have hqueues : (s.core.applyRaMtu ra).pendingNdp = s.queuesUnder packet icmp := by
      unfold Core.applyRaMtu queuesUnder
      rw [hra, Option.bind_some]
      cases linkMtuOf ra <;> rfl
    rw [hqueues]
    apply hteach
    obtain ⟨mac, hmac⟩ := Option.isSome_iff_exists.mp hsome
    have hne : icmpv6TypeRouterAdvert ≠ icmpv6TypeRedirect := by decide
    simp [taughtNeighbor, htype, hne, hra, hmac]

omit [HashOrder] in
theorem queuesUnder_eq (htype : icmp.msgType ≠ icmpv6TypeRouterAdvert) :
    s.queuesUnder packet icmp = s.pendingNdpPackets := by
  simp [queuesUnder, Icmpv6Packet.validatedRouterAdvertisement, htype]

omit [HashOrder] in
theorem unstranded_processNeighborSolicit (h : s.core.Unstranded)
    (htype : icmp.msgType = icmpv6TypeNeighborSolicit)
    (hteach : ∀ a ∈ s.taughtNeighbor packet icmp, waiting s.pendingNdpPackets a = []) :
    (s.processNeighborSolicit eth packet icmp).1.core.Unstranded := by
  rw [core_processNeighborSolicit]
  split
  · exact h
  · rename_i target htarget
    cases hmac : solicitationHint packet icmp with
    | none =>
      dsimp only
      split
      · exact h.congr rfl rfl rfl rfl
      · exact h
    | some mac =>
      have hlearned : ({ s.core with
          ndpTable := s.core.ndpTable.learnStale packet.header.srcIp mac } : Core).Unstranded := by
        refine h.learn (NdpTable.lookup_learnStale _ _ _) (hteach _ ?_)
        have hredirect : icmpv6TypeNeighborSolicit ≠ icmpv6TypeRedirect := by decide
        have hadvert : icmpv6TypeNeighborSolicit ≠ icmpv6TypeRouterAdvert := by decide
        simp [taughtNeighbor, htype, hredirect, hadvert, htarget, hmac]
      dsimp only
      split
      · exact hlearned.congr rfl rfl rfl rfl
      · exact hlearned

theorem unstranded_processNeighborAdvert (h : s.core.Unstranded) :
    (s.processNeighborAdvert eth packet icmp).1.core.Unstranded := by
  cases htarget : icmp.validatedNeighborAdvertisementTarget packet.header.dstIp
      packet.header.hopLimit with
  | none =>
    unfold processNeighborAdvert
    rw [htarget]
    exact h
  | some target =>
    have hdup : (s.noticeDuplicate eth target).core.Unstranded :=
      unstranded_noticeDuplicate h target
    rcases core_processNeighborAdvert s eth htarget with
      ⟨t, mac, ht, hcached, hcore, -⟩ | ⟨t, mac, ht, hcore, -⟩ | ⟨hcore, -⟩
    · rw [hcore]
      refine hdup.learn ht ?_
      by_contra hwait
      rw [hdup.ndp target hwait] at hcached
      cases hcached
    · rw [hcore]
      exact hdup.resolve ht
    · rw [hcore]
      exact hdup

theorem unstranded_processIpv6 (h : s.core.Unstranded)
    (hteach : ∀ m ∈ s.admittedIcmpv6 eth.payload,
      ∀ a ∈ s.taughtNeighbor m.1 m.2, waiting (s.queuesUnder m.1 m.2) a = []) :
    (s.processIpv6 eth).1.core.Unstranded := by
  unfold processIpv6
  split
  · exact h
  · rename_i packet icmp hm
    have hteach := hteach _ hm
    split_ifs with h₁ h₂ h₃ h₄ h₅ h₆
    · rw [core_processPacketTooBig]
      split
      · exact h
      · exact h.congr rfl rfl rfl rfl
    · have hne : icmp.msgType ≠ icmpv6TypeRouterAdvert := by
        rw [h₂]
        decide
      refine unstranded_processRedirect h h₂ fun a ha => ?_
      rw [← queuesUnder_eq hne]
      exact hteach a ha
    · exact unstranded_processRouterAdvert h h₃ hteach
    · exact h
    · refine unstranded_processNeighborSolicit h h₅ fun a ha => ?_
      rw [← queuesUnder_eq h₃]
      exact hteach a ha
    · exact unstranded_processNeighborAdvert h
    · exact h

theorem unstranded_processFrame [Transports τ] (h : s.core.Unstranded) {raw : Frame}
    (hteach : s.TeachesNoneWaiting raw) : (s.processFrame raw).1.core.Unstranded := by
  unfold processFrame
  split
  · exact h
  · rename_i eth heth
    obtain ⟨h4, h6⟩ := hteach eth heth
    split
    · exact unstranded_processArp h eth.payload
    · rename_i htype
      exact unstranded_processIpv4 h (h4 htype)
    · rename_i htype
      exact unstranded_processIpv6 h (h6 htype)
    · exact h

end frames

section runs

variable [HashOrder] [Transports τ] {s : NetStack τ}

theorem unstranded_stepTimers (h : s.core.Unstranded) (now : ℕ) :
    (s.stepTimers now).1.core.Unstranded := by
  refine core_stepTimers s now (fun c k p hc => hc.sendIp k p) fun m _ => ?_
  have hpumped : ({ s.core with
      time := now, ndpTable := (s.ndpTable.stepNud now).1
      raRoutes := Hashed.retain (fun _ v => stillValid now v.1) m } : Core).Unstranded :=
    (h.ndpTable fun a _ => NdpTable.lookup_stepNud s.ndpTable now a).congr rfl rfl rfl rfl
  have hdad := hpumped.completeDad now
  unfold Core.expireAddress
  split
  · exact ⟨hdad.arp, fun k hk => (hk rfl).elim⟩
  · exact hdad

theorem unstranded_step (h : s.core.Unstranded) (c : Call τ) (hteach : c.TeachesNoneWaiting s) :
    (s.step c).core.Unstranded := by
  cases c with
  | sendIpPacket dst bytes =>
    change (s.sendIpPacket dst bytes).1.core.Unstranded
    rw [core_sendIpPacket]
    exact h.sendIp _ _
  | sendIp6Packet dst bytes =>
    change (s.sendIp6Packet dst bytes).1.core.Unstranded
    rw [core_sendIp6Packet]
    split
    · exact h
    · exact h.sendIp6 _ _
  | processFrame raw => exact unstranded_processFrame h hteach
  | stepTimers now => exact unstranded_stepTimers h now.toNat
  | pollTransmit => exact unstranded_stepTimers h s.currentTimeMs
  | configureIpv6Interface address len gateway =>
    change (s.configureIpv6Interface address len.toNat gateway).core.Unstranded
    rw [core_configureIpv6Interface]
    exact h.congr rfl rfl rfl rfl
  | clearIpv6Interface =>
    change s.clearIpv6Interface.core.Unstranded
    rw [core_clearIpv6Interface]
    exact ⟨h.arp, fun k hk => (hk rfl).elim⟩
  | startRouterDiscovery | cancelRouterDiscovery | clearIpv6PathMtu | applyDhcpAck | nextIpId
  | setFirewall | app => exact h.congr rfl rfl rfl rfl

omit [HashOrder] [Transports τ] in
theorem unstranded_new (config : NetStackConfig) (t : τ) : (new config t).core.Unstranded :=
  ⟨fun _ hk => (hk rfl).elim, fun _ hk => (hk rfl).elim⟩

end runs

/-! ### What becomes of a packet that waits -/

/-- Every packet that waited waits on, has left for the address that was learned, or was dropped: it
is longer than the link MTU, or the interface was cleared. -/
structure Accounted (s s' : NetStack τ) (out : List Frame) : Prop where
  arp : ∀ nextHop, ∀ p ∈ waiting s.pendingArpPackets nextHop,
    p ∈ waiting s'.pendingArpPackets nextHop ∨
      ∃ mac, s'.arpTable.lookup nextHop = some mac ∧ s.frameTo mac ethertypeIpv4 p ∈ out
  ndp : ∀ nextHop, ∀ p ∈ waiting s.pendingNdpPackets nextHop,
    p ∈ waiting s'.pendingNdpPackets nextHop ∨
      (∃ mac, s'.ndpTable.lookup nextHop = some mac ∧ s.frameTo mac ethertypeIpv6 p ∈ out) ∨
      s'.ipv6LinkMtu < p.length ∨ (s'.config.ipv6 = none ∧ s'.pendingNdpPackets = ∅)

/-- Queues only grow. -/
structure Core.Holds (c c' : Core) : Prop where
  arp : ∀ nextHop, ∀ p ∈ waiting c.pendingArp nextHop, p ∈ waiting c'.pendingArp nextHop
  ndp : ∀ nextHop, ∀ p ∈ waiting c.pendingNdp nextHop, p ∈ waiting c'.pendingNdp nextHop

namespace Core

variable {c c' c'' : Core}

theorem Holds.of_eq (harp : c'.pendingArp = c.pendingArp) (hndp : c'.pendingNdp = c.pendingNdp) :
    Holds c c' := ⟨fun _ _ hp => by rwa [harp], fun _ _ hp => by rwa [hndp]⟩

theorem holds_sendIp (c : Core) (nextHop : Ipv4Address) (bytes : List UInt8) :
    Holds c (c.sendIp nextHop bytes) := by
  unfold Core.sendIp
  split
  · exact .of_eq rfl rfl
  · exact ⟨fun _ _ hp => mem_waiting_enqueue hp, fun _ _ hp => hp⟩

theorem holds_sendIp6 (c : Core) (nextHop : Ipv6Address) (bytes : List UInt8) :
    Holds c (c.sendIp6 nextHop bytes) := by
  refine ⟨fun _ _ hp => hp, fun k p hp => ?_⟩
  unfold Core.sendIp6
  dsimp only
  split
  · exact hp
  · exact mem_waiting_enqueue hp

theorem holds_completeDad (c : Core) (now : ℕ) : Holds c (c.completeDad now) := by
  unfold Core.completeDad
  split
  · exact .of_eq rfl rfl
  · split <;> exact .of_eq rfl rfl

end Core

section accounts

variable {s s' : NetStack τ} {out : List Frame}

theorem Core.Holds.accounted (h : Core.Holds s.core s'.core) : Accounted s s' out :=
  ⟨fun k p hp => .inl (h.arp k p hp), fun k p hp => .inl (h.ndp k p hp)⟩

variable {eth : EthernetFrame} {packet : Ipv6Packet} {icmp : Icmpv6Packet}

theorem mem_drained {mac : MacAddress} {ethertype : ℕ} {queue : Option (List (List UInt8))}
    {p : List UInt8} (h : p ∈ queue.getD []) :
    s.frameTo mac ethertype p ∈ s.drained mac ethertype queue := List.mem_map_of_mem h

theorem accounted_processArp (payload : List UInt8) :
    Accounted s (s.processArp payload).1 (s.processArp payload).2 := by
  unfold processArp
  split
  · exact (Core.Holds.of_eq rfl rfl).accounted
  · rename_i arp _
    refine ⟨fun k p hp => ?_, fun k p hp => .inl hp⟩
    by_cases hk : k = arp.senderIp
    · subst hk
      refine .inr ⟨arp.senderMac, ?_, List.mem_append_left _ (mem_drained hp)⟩
      rw [ArpTable.lookup_insert, if_pos rfl]
    · refine .inl ?_
      dsimp only
      rwa [waiting_erase, if_neg hk]

theorem accounted_processIpv4 [Transports τ] :
    Accounted s (s.processIpv4 eth).1 (s.processIpv4 eth).2 := by
  cases hpacket : s.admittedIpv4 eth.payload with
  | none =>
    unfold processIpv4
    rw [hpacket]
    exact (Core.Holds.of_eq rfl rfl).accounted
  | some packet =>
    refine Core.Holds.accounted ?_
    rw [core_processIpv4 s hpacket]
    exact .of_eq rfl rfl

variable [HashOrder]

theorem accounted_processRouterAdvert :
    Accounted s (s.processRouterAdvert packet icmp).1 out := by
  have hcore := core_processRouterAdvert s packet icmp
  split at hcore
  · refine Core.Holds.accounted ?_
    rw [hcore]
    exact .of_eq rfl rfl
  · rename_i ra _
    obtain ⟨slaac, dad, heq⟩ := Core.applyRaAddress_eq ((({ s.core with
      ndpTable := s.core.raNdpTable (packet.header.srcIp ∈
        s.ipv6FailedRioRouters) packet.header.srcIp
        icmp.ndpSourceLinkLayerAddress ra } : Core).applyRaMtu ra).applyRaRoutes packet.header.srcIp
          ra.routes) ra
    rw [Core.advertised, heq] at hcore
    have harp := congrArg Core.pendingArp hcore
    have hndp := congrArg Core.pendingNdp hcore
    have hmtu := congrArg Core.linkMtu hcore
    simp only [core, Core.applyRaRoutes, Core.applyRaMtu] at harp hndp hmtu
    cases hlink : linkMtuOf ra with
    | none =>
      simp only [hlink] at harp hndp
      exact (Core.Holds.of_eq harp hndp).accounted
    | some mtu =>
      simp only [hlink] at harp hndp hmtu
      refine ⟨fun k p hp => .inl ?_, fun k p hp => ?_⟩
      · rwa [harp]
      · rw [hndp, hmtu, waiting_shrinkQueues]
        rcases Nat.lt_or_ge mtu p.length with hlt | hle
        · exact .inr (.inr (.inl hlt))
        · exact .inl (List.mem_filter.mpr ⟨hp, by simpa using hle⟩)

theorem accounted_processNeighborAdvert :
    Accounted s (s.processNeighborAdvert eth packet icmp).1
      (s.processNeighborAdvert eth packet icmp).2 := by
  cases htarget : icmp.validatedNeighborAdvertisementTarget packet.header.dstIp
      packet.header.hopLimit with
  | none =>
    unfold processNeighborAdvert
    rw [htarget]
    exact (Core.Holds.of_eq rfl rfl).accounted
  | some target =>
    have hdup : Core.Holds s.core (s.noticeDuplicate eth target).core := by
      rw [core_noticeDuplicate]
      split <;> exact .of_eq rfl rfl
    rcases core_processNeighborAdvert s eth htarget with
      ⟨t, mac, ht, hcached, hcore, -⟩ | ⟨t, mac, ht, hcore, hout⟩ | ⟨hcore, -⟩
    · refine Core.Holds.accounted ?_
      rw [hcore]
      exact ⟨hdup.arp, hdup.ndp⟩
    · have harp := congrArg Core.pendingArp hcore
      have hndp := congrArg Core.pendingNdp hcore
      have htable := congrArg Core.ndpTable hcore
      simp only [core] at harp hndp htable
      refine ⟨fun k p hp => .inl ?_, fun k p hp => ?_⟩
      · rw [harp]
        exact hdup.arp k p hp
      · by_cases hk : k = target
        · subst hk
          refine .inr (.inl ⟨mac, ?_, ?_⟩)
          · rw [htable, ht k, if_pos rfl]
          · rw [hout]
            exact mem_drained (hdup.ndp k p hp)
        · refine .inl ?_
          rw [hndp, waiting_erase, if_neg hk]
          exact hdup.ndp k p hp
    · refine Core.Holds.accounted ?_
      rw [hcore]
      exact hdup

theorem accounted_processIpv6 : Accounted s (s.processIpv6 eth).1 (s.processIpv6 eth).2 := by
  unfold processIpv6
  split
  · exact (Core.Holds.of_eq rfl rfl).accounted
  · split_ifs
    · refine Core.Holds.accounted ?_
      rw [core_processPacketTooBig]
      split <;> exact .of_eq rfl rfl
    · refine Core.Holds.accounted ?_
      rw [core_processRedirect]
      split <;> exact .of_eq rfl rfl
    · exact accounted_processRouterAdvert
    · exact (Core.Holds.of_eq rfl rfl).accounted
    · refine Core.Holds.accounted ?_
      rw [core_processNeighborSolicit]
      split
      · exact .of_eq rfl rfl
      · dsimp only
        split <;> split <;> exact .of_eq rfl rfl
    · exact accounted_processNeighborAdvert
    · exact (Core.Holds.of_eq rfl rfl).accounted

variable [Transports τ]

theorem accounted_stepTimers (now : ℕ) : Accounted s (s.stepTimers now).1 out := by
  have h := core_stepTimers s now (P := fun c =>
    (∀ k, ∀ p ∈ waiting s.core.pendingArp k, p ∈ waiting c.pendingArp k) ∧
      ((∀ k, ∀ p ∈ waiting s.core.pendingNdp k, p ∈ waiting c.pendingNdp k) ∨
        (c.config.ipv6 = none ∧ c.pendingNdp = ∅)))
    (fun c k p hc => ⟨fun k' q hq => (Core.holds_sendIp c k p).arp k' q (hc.1 k' q hq), by
      rcases hc.2 with hkeep | hclear
      · exact .inl fun k' q hq => (Core.holds_sendIp c k p).ndp k' q (hkeep k' q hq)
      · refine .inr ?_
        unfold Core.sendIp
        split <;> exact hclear⟩)
    (fun m _ => by
      have hdad := Core.holds_completeDad { s.core with
        time := now, ndpTable := (s.ndpTable.stepNud now).1
        raRoutes := Hashed.retain (fun _ v => stillValid now v.1) m } now
      unfold Core.expireAddress
      split
      · exact ⟨hdad.arp, .inr ⟨rfl, rfl⟩⟩
      · exact ⟨hdad.arp, .inl hdad.ndp⟩)
  refine ⟨fun k p hp => .inl (h.1 k p hp), fun k p hp => ?_⟩
  rcases h.2 with hkeep | hclear
  · exact .inl (hkeep k p hp)
  · exact .inr (.inr (.inr hclear))

theorem accounted_step (s : NetStack τ) (c : Call τ) : Accounted s (s.step c) (s.emitted c) := by
  cases c with
  | sendIpPacket dst bytes =>
    change Accounted s (s.sendIpPacket dst bytes).1 _
    refine Core.Holds.accounted ?_
    rw [core_sendIpPacket]
    exact Core.holds_sendIp _ _ _
  | sendIp6Packet dst bytes =>
    change Accounted s (s.sendIp6Packet dst bytes).1 _
    refine Core.Holds.accounted ?_
    rw [core_sendIp6Packet]
    split
    · exact .of_eq rfl rfl
    · exact Core.holds_sendIp6 _ _ _
  | processFrame raw =>
    change Accounted s (s.processFrame raw).1 (s.processFrame raw).2
    unfold processFrame
    split
    · exact (Core.Holds.of_eq rfl rfl).accounted
    · split
      · exact accounted_processArp _
      · exact accounted_processIpv4
      · exact accounted_processIpv6
      · exact (Core.Holds.of_eq rfl rfl).accounted
  | stepTimers now => exact accounted_stepTimers now.toNat
  | pollTransmit => exact accounted_stepTimers s.currentTimeMs
  | configureIpv6Interface address len gateway =>
    change Accounted s (s.configureIpv6Interface address len.toNat gateway) _
    refine Core.Holds.accounted ?_
    rw [core_configureIpv6Interface]
    exact .of_eq rfl rfl
  | clearIpv6Interface =>
    have h := core_clearIpv6Interface s
    have harp := congrArg Core.pendingArp h
    refine ⟨fun k p hp => .inl ?_, fun k p hp => .inr (.inr (.inr ⟨rfl, rfl⟩))⟩
    change p ∈ waiting s.clearIpv6Interface.core.pendingArp k
    rw [harp]
    exact hp
  | startRouterDiscovery | cancelRouterDiscovery | clearIpv6PathMtu | applyDhcpAck | nextIpId
  | setFirewall | app =>
    refine Core.Holds.accounted ?_
    exact .of_eq rfl rfl

end accounts

/-! ### Packets that wait are waited for -/

/-- Every further send through a next hop that packets wait for asks for its address again. -/
structure Retries (s : NetStack τ) : Prop where
  arp : ∀ dst bytes, waiting s.pendingArpPackets (s.ipNextHop dst bytes) ≠ [] →
    (s.sendIpPacket dst bytes).2 = some (s.frameTo .broadcast ethertypeArp
      (ArpPacket.buildRequest s.config.mac s.config.ip (s.ipNextHop dst bytes)).serialize)
  ndp : ∀ dst bytes, bytes.length ≤ s.effectiveMtu dst →
    waiting s.pendingNdpPackets (s.ipv6NextHop dst).2 ≠ [] →
      (s.sendIp6Packet dst bytes).2 = some (s.solicit (s.ipv6NextHop dst).2)

theorem Core.Unstranded.retries {s : NetStack τ} (h : s.core.Unstranded) : s.Retries := by
  refine ⟨fun dst bytes hwait => ?_, fun dst bytes hfits hwait => ?_⟩
  · have hnone : s.arpTable.lookup (s.ipNextHop dst bytes) = none := h.arp _ hwait
    unfold sendIpPacket
    dsimp only
    rw [hnone]
  · have hcore := core_ipv6NextHop s dst
    have hnone : s.ndpTable.lookup (s.ipv6NextHop dst).2 = none := h.ndp _ hwait
    unfold sendIp6Packet
    rw [if_neg (by omega)]
    dsimp only
    generalize s.ipv6NextHop dst = routed at hcore hnone ⊢
    have hndp : routed.1.ndpTable = s.ndpTable := congrArg Core.ndpTable hcore
    have hconfig : routed.1.config = s.config := congrArg Core.config hcore
    have hfound := NdpTable.lookupForTransmit_snd routed.1.ndpTable routed.2 routed.1.currentTimeMs
    rw [hndp, hnone] at hfound
    unfold sendIp6Via
    dsimp only
    rw [hndp]
    split
    · rename_i hmac
      rw [hfound] at hmac
      cases hmac
    · simp only [solicit, frameTo, myIp6, hconfig]

section main

variable [HashOrder] [Transports τ]

end main

/-! ### A stranded packet -/

def labHost : NetStackConfig := ⟨labMac 1, ⟨10, 0, 0, 1⟩, none, 24, none⟩

def labPeerMac : MacAddress := labMac 2

/-- An IPv4 packet from 10.0.0.`last` to the host. -/
def labPacketFrom (last : UInt8) : Frame :=
  EthernetFrame.serialize labHost.mac labPeerMac ethertypeIpv4
    (Ipv4Packet.serialize ⟨10, 0, 0, last⟩ ⟨10, 0, 0, 1⟩ 17 7 64 [])

end ToyTcpip.NetStack
