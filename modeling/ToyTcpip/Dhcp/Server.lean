import ToyTcpip.Ethernet
import ToyTcpip.Lib.Entries
import ToyTcpip.Lib.Hashed
import ToyTcpip.Lib.Machine
import ToyTcpip.Routing.Table

/-! The DHCPv4 server of `dhcp.rs`, and which messages keep its leases apart. -/
namespace ToyTcpip.Dhcp

open Hashed

def dhcpOpBootrequest : UInt8 := 1

def dhcpOpBootreply : UInt8 := 2

inductive DhcpMessageType where
  | discover
  | offer
  | request
  | ack
  | nak
  | release
  | unknown (v : UInt8)
  deriving DecidableEq, Repr

structure DhcpPacket where
  op : UInt8
  xid : UInt32
  ciaddr : Ipv4Address
  yiaddr : Ipv4Address
  siaddr : Ipv4Address
  chaddr : MacAddress
  msgType : DhcpMessageType
  subnetMask : Option Ipv4Address
  router : Option Ipv4Address
  dns : Option Ipv4Address
  serverId : Option Ipv4Address
  leaseTime : Option UInt32

def unspecified : Ipv4Address := ⟨0, 0, 0, 0⟩

namespace DhcpPacket

def buildDiscover (chaddr : MacAddress) (xid : UInt32) : DhcpPacket :=
  ⟨dhcpOpBootrequest, xid, unspecified, unspecified, unspecified, chaddr, .discover, none, none,
    none, none, none⟩

def buildRequest (chaddr : MacAddress) (xid : UInt32) (requestedIp serverId : Ipv4Address) :
    DhcpPacket :=
  ⟨dhcpOpBootrequest, xid, unspecified, requestedIp, serverId, chaddr, .request, none, none, none,
    some serverId, none⟩

/-- The offer and the acknowledgement differ only in their type. -/
def buildReply (msgType : DhcpMessageType) (chaddr : MacAddress) (xid : UInt32)
    (ip serverIp subnetMask router dns : Ipv4Address) (leaseSecs : UInt32) : DhcpPacket :=
  ⟨dhcpOpBootreply, xid, unspecified, ip, serverIp, chaddr, msgType, some subnetMask, some router,
    some dns, some serverIp, some leaseSecs⟩

def buildOffer := buildReply .offer

def buildAck := buildReply .ack

end DhcpPacket

structure DhcpServer where
  serverIp : Ipv4Address
  subnetMask : Ipv4Address
  router : Ipv4Address
  dns : Ipv4Address
  startIp : Ipv4Address
  endIp : Ipv4Address
  nextAllocU32 : BitVec 32
  leaseTimeSecs : UInt32
  leases : HashMap MacAddress Ipv4Address

namespace DhcpServer

def new (serverIp subnetMask router dns startIp endIp : Ipv4Address) (leaseTimeSecs : UInt32) :
    DhcpServer :=
  ⟨serverIp, subnetMask, router, dns, startIp, endIp, startIp.toU32, leaseTimeSecs, ∅⟩

def allocateIp (s : DhcpServer) (mac : MacAddress) : DhcpServer × Ipv4Address :=
  match s.leases.lookup mac with
  | some existing => (s, existing)
  | none =>
    let allocated := Ipv4Address.fromU32 s.nextAllocU32
    ({ s with
        nextAllocU32 :=
          if s.nextAllocU32 < s.endIp.toU32 then s.nextAllocU32 + 1 else s.nextAllocU32
        leases := s.leases.insert mac allocated }, allocated)

def handlePacket (s : DhcpServer) (pkt : DhcpPacket) : DhcpServer × Option DhcpPacket :=
  match pkt.msgType with
  | .discover =>
    let (s, offeredIp) := s.allocateIp pkt.chaddr
    (s, some (.buildOffer pkt.chaddr pkt.xid offeredIp s.serverIp s.subnetMask s.router s.dns
      s.leaseTimeSecs))
  | .request =>
    let (s, assignedIp) := if pkt.yiaddr ≠ unspecified then (s, pkt.yiaddr) else
      s.allocateIp pkt.chaddr
    let s := { s with leases := s.leases.insert pkt.chaddr assignedIp }
    (s, some (.buildAck pkt.chaddr pkt.xid assignedIp s.serverIp s.subnetMask s.router s.dns
      s.leaseTimeSecs))
  | _ => (s, none)

/-! ### What a message does to the leases -/

/-- An address of the pool. -/
def InPool (s : DhcpServer) (ip : Ipv4Address) : Prop :=
  s.startIp.toU32 ≤ ip.toU32 ∧ ip.toU32 ≤ s.endIp.toU32

instance (s : DhcpServer) (ip : Ipv4Address) : Decidable (s.InPool ip) :=
  inferInstanceAs (Decidable (_ ∧ _))

/-- A client may have an address of the pool that no other client holds. -/
def FreeFor (s : DhcpServer) (mac : MacAddress) (ip : Ipv4Address) : Prop :=
  s.InPool ip ∧ ∀ other, other ≠ mac → s.leases.lookup other ≠ some ip

/-- Whoever asks for an address asks for one that is free; whoever asks for any, and holds none,
finds the next one free. -/
def Fits (s : DhcpServer) (pkt : DhcpPacket) : Prop :=
  match pkt.msgType with
  | .discover => s.leases.lookup pkt.chaddr = none →
      s.FreeFor pkt.chaddr (.fromU32 s.nextAllocU32)
  | .request =>
    if pkt.yiaddr ≠ unspecified then s.FreeFor pkt.chaddr pkt.yiaddr
    else s.leases.lookup pkt.chaddr = none → s.FreeFor pkt.chaddr (.fromU32 s.nextAllocU32)
  | _ => True

/-- Every lease is of the pool, and no two clients have the same. -/
def LeasesApart (s : DhcpServer) : Prop :=
  Distinct s.leases ∧ ∀ mac ip, s.leases.lookup mac = some ip → s.InPool ip

variable {s : DhcpServer} {pkt : DhcpPacket} {mac : MacAddress} {ip : Ipv4Address}

/-- What a client is given that asks for no address in particular. -/
def nextFor (s : DhcpServer) (mac : MacAddress) : Ipv4Address :=
  (s.leases.lookup mac).getD (.fromU32 s.nextAllocU32)

/-- The address that a message records for its client. -/
def grant (s : DhcpServer) (pkt : DhcpPacket) : Option Ipv4Address :=
  match pkt.msgType with
  | .discover => some (s.nextFor pkt.chaddr)
  | .request => some (if pkt.yiaddr ≠ unspecified then pkt.yiaddr else s.nextFor pkt.chaddr)
  | _ => none

theorem allocateIp_spec (s : DhcpServer) (mac : MacAddress) :
    (s.allocateIp mac).2 = s.nextFor mac ∧
      (∀ k, (s.allocateIp mac).1.leases.lookup k =
        if k = mac then some (s.nextFor mac) else s.leases.lookup k) ∧
      (s.allocateIp mac).1.startIp = s.startIp ∧ (s.allocateIp mac).1.endIp = s.endIp := by
  rw [allocateIp, nextFor]
  cases hmac : s.leases.lookup mac with
  | some existing =>
    refine ⟨rfl, fun k => ?_, rfl, rfl⟩
    by_cases hk : k = mac
    · rw [if_pos hk, hk]
      exact hmac
    · rw [if_neg hk]
  | none => exact ⟨rfl, fun k => lookup_insert_of _ _ _ _, rfl, rfl⟩

theorem handlePacket_spec (s : DhcpServer) (pkt : DhcpPacket) :
    (∀ k, (s.handlePacket pkt).1.leases.lookup k = match s.grant pkt with
      | some ip => if k = pkt.chaddr then some ip else s.leases.lookup k
      | none => s.leases.lookup k) ∧
      (s.handlePacket pkt).1.startIp = s.startIp ∧ (s.handlePacket pkt).1.endIp = s.endIp ∧
      ∀ reply, (s.handlePacket pkt).2 = some reply →
        reply.chaddr = pkt.chaddr ∧ s.grant pkt = some reply.yiaddr := by
  obtain ⟨hip, hlookup, hstart, hend⟩ := s.allocateIp_spec pkt.chaddr
  rw [handlePacket, grant, ← hip]
  generalize s.allocateIp pkt.chaddr = allocated at *
  obtain ⟨s', ip⟩ := allocated
  subst hip
  cases pkt.msgType with
  | discover =>
    refine ⟨hlookup, hstart, hend, ?_⟩
    rintro reply hreply
    obtain rfl := Option.some.inj hreply
    exact ⟨rfl, rfl⟩
  | request =>
    by_cases hask : pkt.yiaddr ≠ unspecified
    · simp only [if_pos hask]
      refine ⟨fun k => lookup_insert_of _ _ _ _, trivial, trivial, ?_⟩
      rintro reply hreply
      obtain rfl := Option.some.inj hreply
      exact ⟨rfl, rfl⟩
    · simp only [if_neg hask]
      refine ⟨fun k => ?_, hstart, hend, ?_⟩
      · rw [lookup_insert_of, hlookup]
        split_ifs <;> rfl
      · rintro reply hreply
        obtain rfl := Option.some.inj hreply
        exact ⟨rfl, rfl⟩
  | _ => exact ⟨fun _ => rfl, rfl, rfl, fun _ hreply => by cases hreply⟩

theorem inPool_handlePacket : (s.handlePacket pkt).1.InPool ip ↔ s.InPool ip := by
  obtain ⟨-, hstart, hend, -⟩ := s.handlePacket_spec pkt
  rw [InPool, hstart, hend, InPool]

theorem LeasesApart.freeFor (h : s.LeasesApart) (hip : s.leases.lookup mac = some ip) :
    s.FreeFor mac ip :=
  ⟨h.2 mac ip hip, fun other hne hother => hne (h.1 other mac ip ip hother hip rfl)⟩

theorem LeasesApart.freeFor_nextFor (h : s.LeasesApart) : s.FreeFor mac (s.nextFor mac) ↔
    (s.leases.lookup mac = none → s.FreeFor mac (.fromU32 s.nextAllocU32)) := by
  rw [nextFor]
  cases hmac : s.leases.lookup mac with
  | some existing => simpa using h.freeFor hmac
  | none => simp

theorem LeasesApart.fits_iff (h : s.LeasesApart) :
    s.Fits pkt ↔ ∀ ip, s.grant pkt = some ip → s.FreeFor pkt.chaddr ip := by
  rw [Fits, grant]
  cases pkt.msgType with
  | discover =>
    rw [← h.freeFor_nextFor]
    simp
  | request =>
    dsimp only
    split_ifs
    · simp
    · rw [← h.freeFor_nextFor]
      simp
  | _ => simp

/-- The leases stay apart exactly when the message fits. -/
theorem leasesApart_handlePacket_iff (h : s.LeasesApart) :
    (s.handlePacket pkt).1.LeasesApart ↔ s.Fits pkt := by
  obtain ⟨hlookup, -⟩ := s.handlePacket_spec pkt
  rw [h.fits_iff]
  cases hgrant : s.grant pkt with
  | none =>
    simp only [hgrant] at hlookup
    refine iff_of_true ⟨?_, ?_⟩ (fun _ => nofun)
    · intro k k' v v' hk hk'
      rw [hlookup] at hk hk'
      exact h.1 k k' v v' hk hk'
    · intro mac ip hip
      rw [hlookup] at hip
      exact inPool_handlePacket.mpr (h.2 mac ip hip)
  | some given =>
    simp only [hgrant] at hlookup
    have hdistinct : Distinct (s.handlePacket pkt).1.leases ↔
        Distinct (s.leases.insert pkt.chaddr given) := by
      simp only [Distinct, Apart, hlookup, lookup_insert_of]
    rw [LeasesApart, hdistinct, distinct_insert_iff h.1]
    constructor
    · rintro ⟨hfree, hpool⟩ ip hip
      obtain rfl := Option.some.inj hip
      exact ⟨inPool_handlePacket.mp (hpool pkt.chaddr given (by rw [hlookup, if_pos rfl])), hfree⟩
    · intro hfree
      obtain ⟨hpool, hother⟩ := hfree given rfl
      refine ⟨hother, fun mac ip hip => inPool_handlePacket.mpr ?_⟩
      rw [hlookup] at hip
      split_ifs at hip
      · obtain rfl := Option.some.inj hip
        exact hpool
      · exact h.2 mac ip hip

/-- An acknowledgement names the address recorded, and nobody else's lease has changed. -/
theorem handlePacket_records (s : DhcpServer) (pkt : DhcpPacket) :
    (∀ reply, (s.handlePacket pkt).2 = some reply →
      (s.handlePacket pkt).1.leases.lookup reply.chaddr = some reply.yiaddr) ∧
      ∀ mac, mac ≠ pkt.chaddr →
        (s.handlePacket pkt).1.leases.lookup mac = s.leases.lookup mac := by
  obtain ⟨hlookup, -, -, hreply⟩ := s.handlePacket_spec pkt
  constructor
  · intro reply hr
    obtain ⟨hmac, hgrant⟩ := hreply reply hr
    simp [hlookup, hgrant, hmac]
  · intro mac hne
    rw [hlookup]
    split
    · rw [if_neg hne]
    · rfl

def step (s : DhcpServer) (pkt : DhcpPacket) : DhcpServer := (s.handlePacket pkt).1

end DhcpServer

/-! ### What the clients have asked for -/

/-- The clients that left their first address to the server, in the order they came, and the
address that a client last named in a Request. -/
structure Asked where
  newcomers : List MacAddress
  named : MacAddress → Option Ipv4Address

namespace Asked

def none : Asked := ⟨[], fun _ => .none⟩

def New (a : Asked) (mac : MacAddress) : Prop := mac ∉ a.newcomers ∧ a.named mac = .none

instance (a : Asked) (mac : MacAddress) : Decidable (a.New mac) :=
  inferInstanceAs (Decidable (_ ∧ _))

/-- A client asks for an address, whichever it is. -/
def any (a : Asked) (mac : MacAddress) : Asked :=
  if a.New mac then { a with newcomers := a.newcomers ++ [mac] } else a

/-- The messages alone make the record. -/
def note (a : Asked) (pkt : DhcpPacket) : Asked :=
  match pkt.msgType with
  | .discover => a.any pkt.chaddr
  | .request =>
    if pkt.yiaddr ≠ unspecified then
      { a with named := Function.update a.named pkt.chaddr (some pkt.yiaddr) }
    else a.any pkt.chaddr
  | _ => a

/-- The address of the pool for the newcomer number `i`, the last one for all that come too late. -/
def slot (startIp endIp : Ipv4Address) (i : ℕ) : Ipv4Address :=
  .fromU32 (startIp.toU32 + .ofNat 32 (min i (endIp.toU32.toNat - startIp.toU32.toNat)))

/-- A client holds what it last named, or else what fell to it as a newcomer. -/
def Holds (startIp endIp : Ipv4Address) (a : Asked) (mac : MacAddress) (ip : Ipv4Address) : Prop :=
  a.named mac = some ip ∨
    a.named mac = .none ∧ ∃ i, a.newcomers[i]? = some mac ∧ ip = slot startIp endIp i

/-- A newcomer finds a pool that is not empty, nobody has named the address that falls to it, and
whoever the last address of the pool fell to has named another one since. -/
def Room (startIp endIp : Ipv4Address) (a : Asked) (mac : MacAddress) : Prop :=
  startIp.toU32 ≤ endIp.toU32 ∧
    (∀ other, other ≠ mac → a.named other ≠ some (slot startIp endIp a.newcomers.length)) ∧
    ∀ i other, a.newcomers[i]? = some other → endIp.toU32.toNat ≤ startIp.toU32.toNat + i →
      a.named other ≠ .none

/-- An address that is named is of the pool, and no other client's; who asks for any either has one
or finds room. -/
def Suits (startIp endIp : Ipv4Address) (a : Asked) (pkt : DhcpPacket) : Prop :=
  match pkt.msgType with
  | .discover => a.New pkt.chaddr → a.Room startIp endIp pkt.chaddr
  | .request =>
    if pkt.yiaddr ≠ unspecified then
      (startIp.toU32 ≤ pkt.yiaddr.toU32 ∧ pkt.yiaddr.toU32 ≤ endIp.toU32) ∧
        ∀ other, other ≠ pkt.chaddr → ¬ a.Holds startIp endIp other pkt.yiaddr
    else a.New pkt.chaddr → a.Room startIp endIp pkt.chaddr
  | _ => True

variable {startIp endIp : Ipv4Address} {a : Asked} {mac other : MacAddress} {ip : Ipv4Address}
  {s : DhcpServer} {pkt : DhcpPacket} {i : ℕ}

theorem toNat_slot : (slot startIp endIp i).toU32.toNat =
    startIp.toU32.toNat + min i (endIp.toU32.toNat - startIp.toU32.toNat) := by
  have := startIp.toU32.isLt
  have := endIp.toU32.isLt
  rw [slot, Ipv4Address.toU32_fromU32, BitVec.toNat_add, BitVec.toNat_ofNat]
  omega

theorem slot_eq_iff : ip = slot startIp endIp i ↔ ip.toU32.toNat =
    startIp.toU32.toNat + min i (endIp.toU32.toNat - startIp.toU32.toNat) := by
  rw [← toNat_slot, ← BitVec.toNat_eq, Ipv4Address.toU32_injective.eq_iff]

/-- The server's leases and its counter, after what has been asked. -/
structure Answered (startIp endIp : Ipv4Address) (a : Asked) (s : DhcpServer) : Prop where
  start : s.startIp = startIp
  stop : s.endIp = endIp
  next : .fromU32 s.nextAllocU32 = slot startIp endIp a.newcomers.length
  leases : ∀ mac ip, s.leases.lookup mac = some ip ↔ a.Holds startIp endIp mac ip
  distinct : a.newcomers.Nodup

theorem Answered.lookup_eq_none_iff (h : Answered startIp endIp a s) :
    s.leases.lookup mac = .none ↔ a.New mac := by
  rw [Option.eq_none_iff_forall_ne_some]
  constructor
  · intro hnone
    have hnamed : a.named mac = .none := by
      rw [Option.eq_none_iff_forall_ne_some]
      exact fun ip hip => hnone ip ((h.leases mac ip).mpr (.inl hip))
    refine ⟨fun hmem => ?_, hnamed⟩
    obtain ⟨i, hi⟩ := List.mem_iff_getElem?.mp hmem
    exact hnone _ ((h.leases mac _).mpr (.inr ⟨hnamed, i, hi, rfl⟩))
  · rintro ⟨hmem, hnamed⟩ ip hip
    rcases (h.leases mac ip).mp hip with hip | ⟨-, i, hi, -⟩
    · rw [hnamed] at hip
      cases hip
    · exact hmem (List.mem_of_getElem? hi)

theorem Answered.congr {s' : DhcpServer} (h : Answered startIp endIp a s)
    (hstart : s'.startIp = s.startIp) (hend : s'.endIp = s.endIp)
    (hnext : s'.nextAllocU32 = s.nextAllocU32)
    (hleases : ∀ mac, s'.leases.lookup mac = s.leases.lookup mac) :
    Answered startIp endIp a s' where
  start := hstart.trans h.start
  stop := hend.trans h.stop
  next := by rw [hnext, h.next]
  leases mac ip := by rw [hleases, h.leases]
  distinct := h.distinct

/-- One more newcomer takes the address that falls to it. -/
theorem holds_any (hnew : a.New mac) : (a.any mac).Holds startIp endIp other ip ↔
    if other = mac then ip = slot startIp endIp a.newcomers.length
    else a.Holds startIp endIp other ip := by
  obtain ⟨hmem, hnamed⟩ := hnew
  rw [any, if_pos ⟨hmem, hnamed⟩, Holds, Holds]
  dsimp only
  split_ifs with hother
  · subst hother
    simp only [Entries.getElem?_concat_of_notMem hmem, hnamed, reduceCtorEq, true_and, false_or,
      exists_eq_left]
  · simp only [Entries.getElem?_concat_of_ne hother]

/-- The counter moves on to the address for the next newcomer, and stays at the last one. -/
theorem next_slot {next last : BitVec 32}
    (hnext : .fromU32 next = slot startIp endIp i) (hlast : last = endIp.toU32) :
    .fromU32 (if next < last then next + 1 else next) = slot startIp endIp (i + 1) := by
  rw [slot_eq_iff, Ipv4Address.toU32_fromU32] at hnext ⊢
  subst hlast
  have := endIp.toU32.isLt
  split_ifs with hlt
  · rw [BitVec.lt_def] at hlt
    have hone : (next + 1).toNat = next.toNat + 1 :=
      BitVec.toNat_add_of_lt (Nat.lt_of_le_of_lt (Nat.succ_le_of_lt hlt) this)
    omega
  · rw [BitVec.lt_def] at hlt
    omega

theorem answered_allocateIp (h : Answered startIp endIp a s) :
    Answered startIp endIp (a.any mac) (s.allocateIp mac).1 := by
  cases hmac : s.leases.lookup mac with
  | some existing =>
    have hold : ¬ a.New mac := by simp [← h.lookup_eq_none_iff, hmac]
    rw [any, if_neg hold, DhcpServer.allocateIp, hmac]
    exact h
  | none =>
    have hnew := h.lookup_eq_none_iff.mp hmac
    obtain ⟨-, hlookup, hstart, hend⟩ := s.allocateIp_spec mac
    refine ⟨hstart.trans h.start, hend.trans h.stop, ?_, fun other ip => ?_, ?_⟩
    · rw [any, if_pos hnew, List.length_append, List.length_singleton, DhcpServer.allocateIp, hmac]
      exact next_slot h.next (by rw [h.stop])
    · rw [hlookup, holds_any hnew, DhcpServer.nextFor, hmac, Option.getD_none, h.next, ← h.leases]
      split_ifs
      · rw [Option.some.injEq, eq_comm]
      · rfl
    · rw [any, if_pos hnew, List.nodup_append]
      exact ⟨h.distinct, by simp, fun x hx y hy => by
        rintro rfl
        exact hnew.1 (List.mem_singleton.mp hy ▸ hx)⟩

theorem answered_handlePacket (h : Answered startIp endIp a s) :
    Answered startIp endIp (a.note pkt) (s.handlePacket pkt).1 := by
  have hallocate := @answered_allocateIp startIp endIp a pkt.chaddr s h
  rw [note, DhcpServer.handlePacket]
  cases pkt.msgType with
  | discover => exact hallocate
  | request =>
    by_cases hask : pkt.yiaddr ≠ unspecified
    · simp only [if_pos hask]
      refine ⟨h.start, h.stop, h.next, fun other ip => ?_, h.distinct⟩
      rw [lookup_insert_of, Holds]
      simp only [Function.update_apply]
      split_ifs
      · simp
      · exact h.leases other ip
    · simp only [if_neg hask]
      refine hallocate.congr rfl rfl rfl fun mac => ?_
      obtain ⟨hip, hlookup, -, -⟩ := s.allocateIp_spec pkt.chaddr
      rw [lookup_insert_of]
      split_ifs with hmac
      · rw [hlookup, if_pos hmac, hip]
      · rfl
  | _ => exact h

/-- The address that falls to a newcomer is of the pool and free as the messages say. -/
theorem Answered.room_iff (h : Answered startIp endIp a s) (hnew : a.New mac) :
    s.FreeFor mac (.fromU32 s.nextAllocU32) ↔ a.Room startIp endIp mac := by
  have hpool : s.InPool (slot startIp endIp a.newcomers.length) ↔
      startIp.toU32 ≤ endIp.toU32 := by
    rw [DhcpServer.InPool, h.start, h.stop, BitVec.le_def, BitVec.le_def, BitVec.le_def, toNat_slot]
    omega
  rw [DhcpServer.FreeFor, h.next, hpool, Room]
  refine and_congr_right fun hle => ?_
  rw [BitVec.le_def] at hle
  simp only [ne_eq, h.leases]
  constructor
  · intro hfree
    refine ⟨fun other hne hnamed => hfree other hne (.inl hnamed),
      fun i other hi hlast hnamed => ?_⟩
    have hne : other ≠ mac := fun heq => hnew.1 (heq ▸ List.mem_of_getElem? hi)
    have hlt := (List.getElem?_eq_some_iff.mp hi).1
    refine hfree other hne (.inr ⟨hnamed, i, hi, ?_⟩)
    rw [slot_eq_iff, toNat_slot]
    omega
  · rintro ⟨hnamed, hlast⟩ other hne (hother | ⟨hnone, i, hi, heq⟩)
    · exact hnamed other hne hother
    · have hlt := (List.getElem?_eq_some_iff.mp hi).1
      rw [slot_eq_iff, toNat_slot] at heq
      exact hlast i other hi (by omega) hnone

theorem Answered.fits_iff (h : Answered startIp endIp a s) :
    s.Fits pkt ↔ a.Suits startIp endIp pkt := by
  rw [DhcpServer.Fits, Suits]
  cases pkt.msgType with
  | discover => simp only [h.lookup_eq_none_iff]; exact forall_congr' h.room_iff
  | request =>
    dsimp only
    split_ifs
    · rw [DhcpServer.FreeFor, DhcpServer.InPool, h.start, h.stop]
      simp only [ne_eq, h.leases]
    · rw [h.lookup_eq_none_iff]
      exact forall_congr' h.room_iff
  | _ => exact Iff.rfl

end Asked

namespace DhcpServer

/-- In a run the leases are apart and of the pool, in every state, exactly when every message suits
what was asked before. Whatever is asked, an answer is what was recorded, and only for who asked. -/
theorem leases_unique (serverIp subnetMask router dns startIp endIp : Ipv4Address)
    (leaseTimeSecs : UInt32) (pkts : List DhcpPacket) :
    let start := new serverIp subnetMask router dns startIp endIp leaseTimeSecs
    ((∀ done, done <+: pkts → (Machine.run step start done).LeasesApart) ↔
      Machine.Along Asked.note (Asked.Suits startIp endIp) .none pkts) ∧
    let s := Machine.run step start pkts
    ∀ pkt, (∀ reply, (s.handlePacket pkt).2 = some reply →
        (s.step pkt).leases.lookup reply.chaddr = some reply.yiaddr) ∧
      ∀ mac, mac ≠ pkt.chaddr → (s.step pkt).leases.lookup mac = s.leases.lookup mac := by
  refine ⟨?_, fun pkt => handlePacket_records _ pkt⟩
  refine Machine.keeps_iff_along (R := Asked.Answered startIp endIp)
    (fun _ _ _ h => Asked.answered_handlePacket h)
    (fun _ _ _ h hs => (leasesApart_handlePacket_iff hs).trans h.fits_iff) ?_ ?_
  · refine ⟨rfl, rfl, ?_, fun mac ip => ?_, List.nodup_nil⟩
    · rw [Asked.slot_eq_iff, Ipv4Address.toU32_fromU32, new]
      simp [Asked.none]
    · simp [new, Asked.Holds, Asked.none]
  · refine ⟨apart_empty, fun mac ip hip => ?_⟩
    simp [new] at hip

/-- A server with two addresses to give. -/
def smallPool : DhcpServer :=
  new ⟨192, 168, 1, 1⟩ ⟨255, 255, 255, 0⟩ ⟨192, 168, 1, 1⟩ ⟨8, 8, 8, 8⟩ ⟨192, 168, 1, 100⟩
    ⟨192, 168, 1, 101⟩ 86400

example : (smallPool.handlePacket (.buildDiscover .zero 1)).2.map (·.yiaddr) =
    some ⟨192, 168, 1, 100⟩ := by decide +kernel

/-- Two newcomers, the first of which asks for what it was offered. -/
def twoClients : List DhcpPacket :=
  [.buildDiscover .zero 1, .buildRequest .zero 2 ⟨192, 168, 1, 100⟩ ⟨192, 168, 1, 1⟩,
    .buildDiscover .broadcast 3]

theorem leases_unique_smallPool : (Machine.run step smallPool twoClients).LeasesApart := by
  refine (leases_unique ⟨192, 168, 1, 1⟩ ⟨255, 255, 255, 0⟩ ⟨192, 168, 1, 1⟩ ⟨8, 8, 8, 8⟩
    ⟨192, 168, 1, 100⟩ ⟨192, 168, 1, 101⟩ 86400 twoClients).1.mpr ?_ _ (List.prefix_refl _)
  refine ⟨fun _ => ?_, ?_, fun _ => ?_, trivial⟩
  · refine ⟨by decide, ?_, ?_⟩
    · simp [Asked.none]
    · simp [Asked.none]
  · refine ⟨⟨by decide, by decide⟩, fun other hne hother => ?_⟩
    rcases hother with hnamed | ⟨-, i, hi, -⟩
    · cases hnamed
    · exact hne (List.mem_singleton.mp (List.mem_of_getElem? hi))
  · refine ⟨by decide, fun other _ => ?_, fun i other hi hlast => ?_⟩
    · change Function.update (fun _ => none) MacAddress.zero _ other ≠ _
      rw [Function.update_apply]
      split_ifs
      · decide
      · exact (Option.some_ne_none _).symm
    · have hlt : i < 1 := (List.getElem?_eq_some_iff.mp hi).1
      obtain rfl : i = 0 := by omega
      exact absurd hlast (by decide)

/-- A client asks for an address of its own choice, and the next one to ask for any gets it too. -/
theorem one_address_two_clients :
    ¬ (Machine.run step smallPool
      [.buildRequest .zero 1 ⟨192, 168, 1, 100⟩ ⟨192, 168, 1, 1⟩,
        .buildDiscover .broadcast 2]).LeasesApart := by
  rintro ⟨hdistinct, -⟩
  have hsame := hdistinct .zero .broadcast ⟨192, 168, 1, 100⟩ ⟨192, 168, 1, 100⟩
    (by decide +kernel) (by decide +kernel) rfl
  exact absurd hsame (by decide)

end DhcpServer

end ToyTcpip.Dhcp
