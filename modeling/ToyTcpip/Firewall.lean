import ToyTcpip.Routing.Table

/-! The rules of `firewall.rs`, in the chain of incoming packets. -/
namespace ToyTcpip

inductive FirewallAction where
  | accept
  | drop
  | reject
  deriving DecidableEq, Repr

structure IpCidr where
  ip : Ipv4Address
  prefixLen : ℕ
  deriving DecidableEq, Repr

def IpCidr.matchesAddr (cidr : IpCidr) (target : Ipv4Address) : Bool :=
  let mask := netmaskOf cidr.prefixLen
  cidr.ip.toU32 &&& mask = target.toU32 &&& mask

structure FirewallRule where
  srcCidr : Option IpCidr := none
  dstCidr : Option IpCidr := none
  protocol : Option UInt8 := none
  srcPortRange : Option (ℕ × ℕ) := none
  dstPortRange : Option (ℕ × ℕ) := none
  action : FirewallAction := .accept
  deriving DecidableEq, Repr

namespace FirewallRule

def portIn (range : Option (ℕ × ℕ)) (port : ℕ) : Bool :=
  match range with
  | some (lo, hi) => lo ≤ port ∧ port ≤ hi
  | none => true

def matchesPacket (rule : FirewallRule) (packet : Ipv4Packet) : Bool :=
  let proto := packet.header.protocol.toU8
  if !(rule.srcCidr.all fun cidr => cidr.matchesAddr packet.header.srcIp) then false
  else if !(rule.dstCidr.all fun cidr => cidr.matchesAddr packet.header.dstIp) then false
  else if !(rule.protocol.all fun p => proto = p) then false
  else if rule.srcPortRange.isSome ∨ rule.dstPortRange.isSome then
    if proto = 6 ∨ proto = 17 then
      if packet.payload.length < 4 then false
      else
        portIn rule.srcPortRange (wordAt packet.payload 0) ∧
          portIn rule.dstPortRange (wordAt packet.payload 2)
    else false
  else true

end FirewallRule

/-- The chain of incoming packets. -/
structure Firewall where
  inputRules : List FirewallRule
  defaultInputPolicy : FirewallAction
  deriving DecidableEq, Repr

namespace Firewall

def new : Firewall := ⟨[], .accept⟩

/-- `evaluate` on the input chain: the first rule that matches, or the policy. -/
def evaluate (fw : Firewall) (packet : Ipv4Packet) : FirewallAction :=
  match fw.inputRules.find? fun rule => rule.matchesPacket packet with
  | some rule => rule.action
  | none => fw.defaultInputPolicy

end Firewall

end ToyTcpip
