import ToyTcpip.Ethernet
import ToyTcpip.Lib.Hashed

/-! ARP packets and the ARP table of `arp.rs`, as far as the host stack uses it. -/
namespace ToyTcpip

open Hashed (HashMap)

def arpPacketLen : ℕ := 28

inductive ArpOpcode where
  | request
  | reply
  | unknown (val : ℕ)
  deriving DecidableEq, Repr

namespace ArpOpcode

def fromU16 (val : ℕ) : ArpOpcode :=
  if val = 1 then .request else if val = 2 then .reply else .unknown val

def toU16 : ArpOpcode → ℕ
  | .request => 1
  | .reply => 2
  | .unknown val => val

end ArpOpcode

/-- The hardware and protocol fields are those of Ethernet and IPv4, the only ones accepted. -/
structure ArpPacket where
  opcode : ArpOpcode
  senderMac : MacAddress
  senderIp : Ipv4Address
  targetMac : MacAddress
  targetIp : Ipv4Address
  deriving DecidableEq, Repr

inductive ArpError where
  | packetTooShort (len : ℕ)
  | invalidHardwareType (htype : ℕ)
  | invalidProtocolType (ptype : ℕ)
  | invalidAddressLengths (hlen plen : UInt8)
  deriving DecidableEq, Repr

namespace ArpPacket

def parse (data : List UInt8) : Except ArpError ArpPacket :=
  if data.length < arpPacketLen then .error (.packetTooShort data.length)
  else if wordAt data 0 ≠ 1 then .error (.invalidHardwareType (wordAt data 0))
  else if wordAt data 2 ≠ 0x0800 then .error (.invalidProtocolType (wordAt data 2))
  else if byteAt data 4 ≠ 6 ∨ byteAt data 5 ≠ 4 then
    .error (.invalidAddressLengths (byteAt data 4) (byteAt data 5))
  else .ok ⟨.fromU16 (wordAt data 6), macAt data 8, addressAt data 14, macAt data 18,
    addressAt data 24⟩

def serialize (p : ArpPacket) : List UInt8 :=
  toBeBytes16 1 ++ toBeBytes16 0x0800 ++ [6, 4] ++ toBeBytes16 p.opcode.toU16 ++
    p.senderMac.octets ++ p.senderIp.octets ++ p.targetMac.octets ++ p.targetIp.octets

def buildRequest (senderMac : MacAddress) (senderIp targetIp : Ipv4Address) : ArpPacket :=
  ⟨.request, senderMac, senderIp, .zero, targetIp⟩

def buildReply (senderMac : MacAddress) (senderIp : Ipv4Address) (targetMac : MacAddress)
    (targetIp : Ipv4Address) : ArpPacket := ⟨.reply, senderMac, senderIp, targetMac, targetIp⟩

end ArpPacket

inductive ArpEntryKind where
  | dynamic
  | static
  deriving DecidableEq, Repr

structure ArpEntryMeta where
  kind : ArpEntryKind
  learnedAtMs : Option ℕ
  expiresAtMs : Option ℕ
  deriving DecidableEq, Repr

inductive ArpLearnOutcome where
  | ignoredProbe
  | ignoredInvalidSender
  | learned
  | refreshed
  | replaced (previous : MacAddress)
  | staticMatch
  | staticConflict (configured advertised : MacAddress)
  deriving DecidableEq, Repr

/-- `isProbe` in the source, where a packet of another format is no `ArpPacket` here. -/
def ArpPacket.isProbe (p : ArpPacket) : Bool := p.opcode = .request ∧ p.senderIp = ⟨0, 0, 0, 0⟩

/-- The stack learns through `insert`, whose entries do not age, and asks through `lookup`. -/
structure ArpTable where
  table : HashMap Ipv4Address MacAddress
  entryMeta : HashMap Ipv4Address ArpEntryMeta

namespace ArpTable

def new : ArpTable := ⟨∅, ∅⟩

def insert (t : ArpTable) (ip : Ipv4Address) (mac : MacAddress) : ArpTable :=
  ⟨t.table.insert ip mac, t.entryMeta.insert ip ⟨.dynamic, none, none⟩⟩

def insertDynamic (t : ArpTable) (ip : Ipv4Address) (mac : MacAddress) (now ttl : ℕ) : ArpTable :=
  ⟨t.table.insert ip mac, t.entryMeta.insert ip ⟨.dynamic, some now,
    some (min (now + ttl) (2 ^ 64 - 1))⟩⟩

def insertStatic (t : ArpTable) (ip : Ipv4Address) (mac : MacAddress) : ArpTable :=
  ⟨t.table.insert ip mac, t.entryMeta.insert ip ⟨.static, none, none⟩⟩

def lookup (t : ArpTable) (ip : Ipv4Address) : Option MacAddress := t.table.lookup ip

/-- The entry of `ip` is dynamic and its time is over. -/
def expired (t : ArpTable) (now : ℕ) (ip : Ipv4Address) : Bool :=
  (t.entryMeta.lookup ip).any fun m => m.expiresAtMs.any fun deadline => deadline ≤ now

def remove (t : ArpTable) (ip : Ipv4Address) : ArpTable × Option MacAddress :=
  (⟨t.table.erase ip, t.entryMeta.erase ip⟩, t.table.lookup ip)

def purgeExpired (t : ArpTable) (now : ℕ) : ArpTable :=
  ⟨Hashed.retain (fun ip _ => !t.expired now ip) t.table,
    Hashed.retain (fun ip _ => !t.expired now ip) t.entryMeta⟩

def learnFromPacket (t : ArpTable) (packet : ArpPacket) (now ttl : ℕ) :
    ArpTable × ArpLearnOutcome :=
  if packet.isProbe then (t, .ignoredProbe)
  else if packet.senderMac = .zero ∨ !packet.senderMac.isUnicast then (t, .ignoredInvalidSender)
  else
    let learned := t.insertDynamic packet.senderIp packet.senderMac now ttl
    match t.table.lookup packet.senderIp with
    | none => (learned, .learned)
    | some previous =>
      if (t.entryMeta.lookup packet.senderIp).any fun m => m.kind = .static then
        (t, if previous = packet.senderMac then .staticMatch else
          .staticConflict previous packet.senderMac)
      else (learned, if previous = packet.senderMac then .refreshed else .replaced previous)

theorem lookup_insert (t : ArpTable) (ip : Ipv4Address) (mac : MacAddress) (ip' : Ipv4Address) :
    (t.insert ip mac).lookup ip' = if ip' = ip then some mac else t.lookup ip' :=
  Hashed.lookup_insert_of t.table ip mac ip'

end ArpTable

end ToyTcpip
