import ToyTcpip.Stack.Runs

/-! The ARP table and its static entries, as frames come in. -/
namespace ToyTcpip

open Hashed (HashOrder hasKey lookup_insert_of lookup_erase_of lookup_retain)

namespace ArpTable

variable {t t' t'' : ArpTable} {ip : Ipv4Address} {mac : MacAddress}

/-- The two maps have the same keys. -/
def SameKeys (t : ArpTable) : Prop := ∀ ip, hasKey t.table ip = hasKey t.entryMeta ip

/-- The operator has set `ip` to `mac`. -/
def IsStatic (t : ArpTable) (ip : Ipv4Address) (mac : MacAddress) : Prop :=
  t.lookup ip = some mac ∧ ∃ m, t.entryMeta.lookup ip = some m ∧ m.kind = .static

/-- A host may have this address. -/
def Legitimate (ip : Ipv4Address) (mac : MacAddress) : Prop :=
  ip ≠ ⟨0, 0, 0, 0⟩ ∧ mac ≠ .zero ∧ mac.isUnicast = true

instance (ip : Ipv4Address) (mac : MacAddress) : Decidable (Legitimate ip mac) :=
  inferInstanceAs (Decidable (_ ∧ _))

/-- Static entries stay, and an entry that was not there before is of a legitimate host. -/
structure Guards (t t' : ArpTable) : Prop where
  static : ∀ ip mac, t.IsStatic ip mac → t'.IsStatic ip mac
  created : ∀ ip mac, t'.lookup ip = some mac → t.lookup ip ≠ some mac → Legitimate ip mac

theorem Guards.refl (t : ArpTable) : t.Guards t := ⟨fun _ _ h => h, fun _ _ h hne => absurd h hne⟩

theorem Guards.trans (h : t.Guards t') (h' : t'.Guards t'') : t.Guards t'' := by
  refine ⟨fun ip mac hs => h'.static ip mac (h.static ip mac hs), fun ip mac hin hnew => ?_⟩
  by_cases hmid : t'.lookup ip = some mac
  · exact h.created ip mac hmid hnew
  · exact h'.created ip mac hin hmid

/-! ### The calls of the table -/

inductive Call where
  | insert (ip : Ipv4Address) (mac : MacAddress)
  | insertDynamic (ip : Ipv4Address) (mac : MacAddress) (now ttl : ℕ)
  | insertStatic (ip : Ipv4Address) (mac : MacAddress)
  | remove (ip : Ipv4Address)
  | purgeExpired (now : ℕ)
  | learnFromPacket (packet : ArpPacket) (now ttl : ℕ)

def step (t : ArpTable) : Call → ArpTable
  | .insert ip mac => t.insert ip mac
  | .insertDynamic ip mac now ttl => t.insertDynamic ip mac now ttl
  | .insertStatic ip mac => t.insertStatic ip mac
  | .remove ip => (t.remove ip).1
  | .purgeExpired now => t.purgeExpired now
  | .learnFromPacket packet now ttl => (t.learnFromPacket packet now ttl).1

/-- A packet that is learned is a dynamic entry of its sender. -/
theorem learnFromPacket_eq (t : ArpTable) (packet : ArpPacket) (now ttl : ℕ) :
    (t.learnFromPacket packet now ttl).1 = t ∨
      (t.learnFromPacket packet now ttl).1 =
        t.insertDynamic packet.senderIp packet.senderMac now ttl ∧
        packet.senderMac ≠ .zero ∧ packet.senderMac.isUnicast = true ∧
        ∀ mac, ¬ t.IsStatic packet.senderIp mac := by
  unfold learnFromPacket
  by_cases hprobe : packet.isProbe = true
  · rw [if_pos hprobe]
    exact .inl rfl
  rw [if_neg hprobe]
  by_cases hsender : packet.senderMac = .zero ∨ (!packet.senderMac.isUnicast) = true
  · rw [if_pos hsender]
    exact .inl rfl
  rw [if_neg hsender]
  rw [not_or, Bool.not_eq_true', Bool.not_eq_false] at hsender
  dsimp only
  split
  · rename_i hnone
    refine .inr ⟨rfl, hsender.1, hsender.2, fun mac hs => ?_⟩
    rw [IsStatic, lookup, hnone] at hs
    cases hs.1
  · by_cases hstatic : ((t.entryMeta.lookup packet.senderIp).any fun m => m.kind = .static) = true
    · rw [if_pos hstatic]
      exact .inl rfl
    · rw [if_neg hstatic]
      refine .inr ⟨rfl, hsender.1, hsender.2, fun mac hs => hstatic ?_⟩
      obtain ⟨-, m, hm, hkind⟩ := hs
      rw [hm]
      simpa using hkind

theorem sameKeys_insert (h : t.SameKeys) (m : ArpEntryMeta) :
    SameKeys ⟨t.table.insert ip mac, t.entryMeta.insert ip m⟩ := by
  intro k
  rw [hasKey, hasKey, lookup_insert_of, lookup_insert_of]
  split_ifs
  · rfl
  · exact h k

theorem sameKeys_step (h : t.SameKeys) (call : Call) : (t.step call).SameKeys := by
  cases call with
  | insert | insertDynamic | insertStatic => exact sameKeys_insert h _
  | remove ip =>
    intro k
    simp only [step, remove, hasKey, lookup_erase_of]
    split_ifs
    · rfl
    · exact h k
  | purgeExpired now =>
    intro k
    simp only [step, purgeExpired, hasKey, lookup_retain]
    have hk := h k
    rw [hasKey, hasKey] at hk
    cases hold : t.table.lookup k <;> cases hmeta : t.entryMeta.lookup k <;>
      simp_all [Option.filter]
    split_ifs <;> rfl
  | learnFromPacket packet now ttl =>
    rcases learnFromPacket_eq t packet now ttl with heq | ⟨heq, -⟩
    · rw [step, heq]
      exact h
    · rw [step, heq]
      exact sameKeys_insert h _

theorem sameKeys_run (calls : List Call) : (Machine.run step new calls).SameKeys :=
  Machine.run_keeps (I := SameKeys) (fun _ call h => sameKeys_step h call) calls
    (show new.SameKeys from fun _ => rfl)

/-! ### When learning is harmless -/

/-- The address has no static entry, and the pair is known already or of a legitimate host. -/
def Learnable (t : ArpTable) (ip : Ipv4Address) (mac : MacAddress) : Prop :=
  (∀ mac', ¬ t.IsStatic ip mac') ∧ (t.lookup ip = some mac ∨ Legitimate ip mac)

theorem isStatic_insert {ip' : Ipv4Address} {mac' : MacAddress} :
    (t.insert ip mac).IsStatic ip' mac' ↔ ip' ≠ ip ∧ t.IsStatic ip' mac' := by
  simp only [IsStatic, lookup, insert, lookup_insert_of]
  by_cases h : ip' = ip
  · simp [h]
  · simp [h]

theorem guards_insert_iff (t : ArpTable) (ip : Ipv4Address) (mac : MacAddress) :
    t.Guards (t.insert ip mac) ↔ t.Learnable ip mac := by
  constructor
  · intro h
    refine ⟨fun mac' hs => (isStatic_insert.mp (h.static ip mac' hs)).1 rfl, ?_⟩
    by_cases hknown : t.lookup ip = some mac
    · exact .inl hknown
    · refine .inr (h.created ip mac ?_ hknown)
      rw [lookup_insert, if_pos rfl]
  · rintro ⟨hstatic, hknown⟩
    refine ⟨fun ip' mac' hs => isStatic_insert.mpr ⟨?_, hs⟩, fun ip' mac' hin hnew => ?_⟩
    · rintro rfl
      exact hstatic mac' hs
    · rw [lookup_insert] at hin
      split_ifs at hin with heq
      · cases hin
        rw [heq] at hnew ⊢
        exact hknown.resolve_left hnew
      · exact absurd hin hnew

end ArpTable

namespace NetStack

variable {τ : Type} {s : NetStack τ}

/-- The pair of addresses that a frame teaches: the sender of an ARP packet, the source of an IPv4
packet that passes the firewall. -/
def learned (s : NetStack τ) (raw : Frame) : Option (Ipv4Address × MacAddress) :=
  (s.acceptedFrame raw).bind fun eth =>
    match eth.ethertype with
    | .arp =>
      match ArpPacket.parse eth.payload with
      | .error _ => none
      | .ok arp => some (arp.senderIp, arp.senderMac)
    | .ipv4 => (s.admittedIpv4 eth.payload).map fun packet => (packet.header.srcIp, eth.srcMac)
    | _ => none

/-- What a frame teaches is harmless to the entries there are. -/
def Harmless (s : NetStack τ) (raw : Frame) : Prop :=
  ∀ e ∈ s.learned raw, s.arpTable.Learnable e.1 e.2

theorem Core.arpTable_advertised (c : Core) (failed : Bool) (router : Ipv6Address)
    (mac : Option MacAddress) (ra : RouterAdvertisement) :
    (c.advertised failed router mac ra).arpTable = c.arpTable := by
  obtain ⟨slaac, dad, heq⟩ := Core.applyRaAddress_eq
    ((({ c with ndpTable := c.raNdpTable failed router mac ra } : Core).applyRaMtu ra).applyRaRoutes
      router ra.routes) ra
  rw [Core.advertised, heq]
  simp only [Core.applyRaRoutes, Core.applyRaMtu]
  split <;> rfl

section frames

variable [HashOrder]

omit [HashOrder] in
theorem arpTable_noticeDuplicate (eth : EthernetFrame) (target : Ipv6Address) :
    (s.noticeDuplicate eth target).core.arpTable = s.core.arpTable := by
  rw [core_noticeDuplicate]
  split <;> rfl

theorem arpTable_processNeighborAdvert (eth : EthernetFrame) (packet : Ipv6Packet)
    (icmp : Icmpv6Packet) :
    (s.processNeighborAdvert eth packet icmp).1.core.arpTable = s.core.arpTable := by
  cases htarget : icmp.validatedNeighborAdvertisementTarget packet.header.dstIp
      packet.header.hopLimit with
  | none =>
    unfold processNeighborAdvert
    rw [htarget]
  | some target =>
    have hdup := arpTable_noticeDuplicate (s := s) eth target
    rcases core_processNeighborAdvert s eth htarget with
      ⟨t, mac, -, -, hcore, -⟩ | ⟨t, mac, -, hcore, -⟩ | ⟨hcore, -⟩
    · rw [hcore]
      exact hdup
    · rw [hcore]
      exact hdup
    · rw [hcore]
      exact hdup

/-- No IPv6 frame touches the ARP table. -/
theorem arpTable_processIpv6 (eth : EthernetFrame) :
    (s.processIpv6 eth).1.core.arpTable = s.core.arpTable := by
  unfold processIpv6
  split
  · rfl
  · split_ifs
    · rw [core_processPacketTooBig]
      split <;> rfl
    · rw [core_processRedirect]
      split <;> rfl
    · rw [core_processRouterAdvert]
      split
      · rfl
      · exact Core.arpTable_advertised _ _ _ _ _
    · rfl
    · rw [core_processNeighborSolicit]
      split
      · rfl
      · dsimp only
        split <;> split <;> rfl
    · exact arpTable_processNeighborAdvert eth _ _
    · rfl

variable [Transports τ]

def receive (s : NetStack τ) (raw : Frame) : NetStack τ := (s.processFrame raw).1

theorem arpTable_receive (raw : Frame) : (s.receive raw).arpTable =
    match s.learned raw with
    | none => s.arpTable
    | some e => s.arpTable.insert e.1 e.2 := by
  rw [receive, processFrame, learned]
  cases s.acceptedFrame raw with
  | none => rfl
  | some eth =>
    rw [Option.bind_some]
    dsimp only
    cases eth.ethertype with
    | arp =>
      dsimp only
      unfold processArp
      cases ArpPacket.parse eth.payload <;> rfl
    | ipv4 =>
      dsimp only
      cases hpacket : s.admittedIpv4 eth.payload with
      | none =>
        unfold processIpv4
        rw [hpacket]
        rfl
      | some packet =>
        have hcore := congrArg Core.arpTable (core_processIpv4 s hpacket)
        exact hcore
    | ipv6 => exact arpTable_processIpv6 eth
    | vlan | mpls | unknown => rfl

/-- A frame keeps what the table guards exactly when what it teaches is harmless. -/
theorem guards_receive_iff (s : NetStack τ) (raw : Frame) :
    s.arpTable.Guards (s.receive raw).arpTable ↔ s.Harmless raw := by
  rw [arpTable_receive, Harmless]
  cases s.learned raw with
  | none => simp [ArpTable.Guards.refl]
  | some e => simp [ArpTable.guards_insert_iff]

theorem sameKeys_receive (h : s.arpTable.SameKeys) (raw : Frame) :
    (s.receive raw).arpTable.SameKeys := by
  rw [arpTable_receive]
  split
  · exact h
  · exact ArpTable.sameKeys_insert h _

theorem guards_run {frames : List Frame} (h : Machine.Along receive Harmless s frames) :
    s.arpTable.Guards (Machine.run receive s frames).arpTable :=
  h.keeps (I := fun t => s.arpTable.Guards t.arpTable)
    (fun t raw hs hraw => hs.trans ((guards_receive_iff t raw).mpr hraw)) (ArpTable.Guards.refl _)

/-- While every frame is harmless, static entries stay and only legitimate hosts get an entry; the
next frame keeps this exactly when it is harmless. The two maps have the same keys whatever comes
in. -/
theorem static_entries_kept {calls : List ArpTable.Call} {frames : List Frame}
    (htable : s.arpTable = Machine.run ArpTable.step .new calls)
    (h : Machine.Along receive Harmless s frames) :
    s.arpTable.Guards (Machine.run receive s frames).arpTable ∧
      (∀ raw, (Machine.run receive s frames).arpTable.Guards
        ((Machine.run receive s frames).receive raw).arpTable ↔
          (Machine.run receive s frames).Harmless raw) ∧
      ∀ any : List Frame, (Machine.run receive s any).arpTable.SameKeys := by
  refine ⟨guards_run h, guards_receive_iff _, fun any => ?_⟩
  refine Machine.run_keeps (I := fun t : NetStack τ => t.arpTable.SameKeys)
    (fun _ raw ht => sameKeys_receive ht raw) any ?_
  show s.arpTable.SameKeys
  rw [htable]
  exact ArpTable.sameKeys_run calls

end frames

/-! ### A poisoned table -/

def arpHost : NetStackConfig := ⟨labMac 1, ⟨10, 0, 0, 1⟩, none, 24, none⟩

/-- The operator has set 10.0.0.2 to 02:00:00:00:00:02. -/
def arpCalls : List ArpTable.Call := [.insertStatic ⟨10, 0, 0, 2⟩ (labMac 2)]

def guardedHost : NetStack Unit :=
  { new arpHost () with arpTable := Machine.run ArpTable.step .new arpCalls }

example : guardedHost.arpTable.lookup ⟨10, 0, 0, 2⟩ = some ⟨#v[2, 0, 0, 0, 0, 2]⟩ := by
  decide +kernel

/-- An ARP reply from `mac` that claims 10.0.0.`last`. -/
def arpClaim (last : UInt8) (mac : MacAddress) : Frame :=
  EthernetFrame.serialize arpHost.mac mac ethertypeArp
    (ArpPacket.buildReply mac ⟨10, 0, 0, last⟩ arpHost.mac arpHost.ip).serialize

theorem harmless_arpClaim : guardedHost.Harmless (arpClaim 3 ⟨#v[2, 0, 0, 0, 0, 3]⟩) := by
  have hlearned : guardedHost.learned (arpClaim 3 ⟨#v[2, 0, 0, 0, 0, 3]⟩) =
      some (⟨10, 0, 0, 3⟩, ⟨#v[2, 0, 0, 0, 0, 3]⟩) := by decide +kernel
  intro e he
  rw [hlearned] at he
  cases he
  refine ⟨?_, .inr (by decide)⟩
  rintro mac ⟨hmac, -⟩
  have hnone : guardedHost.arpTable.lookup ⟨10, 0, 0, 3⟩ = none := by decide +kernel
  rw [hnone] at hmac
  cases hmac

/-- Another host may be learned. -/
theorem static_entries_kept_lab :
    guardedHost.arpTable.Guards (@receive Unit Hashed.latestFirst silent guardedHost
      (arpClaim 3 ⟨#v[2, 0, 0, 0, 0, 3]⟩)).arpTable :=
  (@static_entries_kept Unit guardedHost Hashed.latestFirst silent arpCalls
    [arpClaim 3 ⟨#v[2, 0, 0, 0, 0, 3]⟩] rfl ⟨harmless_arpClaim, trivial⟩).1

/-- An ARP reply of another host takes the place of the static entry. -/
theorem static_entry_poisoned :
    ¬ ∀ (τ : Type) (_ : HashOrder) (_ : Transports τ) (s : NetStack τ) (frames : List Frame),
      s.arpTable.Guards (Machine.run receive s frames).arpTable := by
  intro h
  have hguards := @h Unit Hashed.latestFirst silent guardedHost
    [arpClaim 2 ⟨#v[2, 0, 0, 0, 0, 9]⟩]
  have hkept := (hguards.static ⟨10, 0, 0, 2⟩ ⟨#v[2, 0, 0, 0, 0, 2]⟩
    ⟨by decide +kernel, ⟨.static, none, none⟩, by decide +kernel, rfl⟩).1
  revert hkept
  decide +kernel

end NetStack

end ToyTcpip
