import ToyTcpip.Lib.Machine
import ToyTcpip.Stack.Timers

/-! Runs of the host stack. -/
namespace ToyTcpip.NetStack

open Hashed (HashOrder)

variable {τ : Type}

/-- The calls on a host stack. `app` is what applications do to the transports, which the network
layer only carries; the numbering of packets and the firewall are open to the owner of the stack. -/
inductive Call (τ : Type) where
  | sendIpPacket (dst : Ipv4Address) (bytes : List UInt8)
  | sendIp6Packet (dst : Ipv6Address) (bytes : List UInt8)
  | processFrame (raw : Frame)
  | stepTimers (now : UInt64)
  | pollTransmit
  | startRouterDiscovery
  | cancelRouterDiscovery
  | configureIpv6Interface (address : Ipv6Address) (len : UInt8) (gateway : Option Ipv6Address)
  | clearIpv6Interface
  | clearIpv6PathMtu (destination : Ipv6Address)
  | applyDhcpAck (yiaddr : Ipv4Address) (subnetMask router : Option Ipv4Address)
  | nextIpId
  | setFirewall (firewall : Firewall)
  | app (f : τ → τ)

section steps

variable [HashOrder] [Transports τ]

/-- The state after a call and the frames that it emits. -/
def perform (s : NetStack τ) : Call τ → NetStack τ × List Frame
  | .sendIpPacket dst bytes => let sent := s.sendIpPacket dst bytes; (sent.1, sent.2.toList)
  | .sendIp6Packet dst bytes => let sent := s.sendIp6Packet dst bytes; (sent.1, sent.2.toList)
  | .processFrame raw => s.processFrame raw
  | .stepTimers now => s.stepTimers now.toNat
  | .pollTransmit => s.stepTimers s.currentTimeMs
  | .startRouterDiscovery => let started := s.startRouterDiscovery; (started.1, [started.2])
  | .cancelRouterDiscovery => (s.cancelRouterDiscovery, [])
  | .configureIpv6Interface address len gateway =>
    (s.configureIpv6Interface address len.toNat gateway, [])
  | .clearIpv6Interface => (s.clearIpv6Interface, [])
  | .clearIpv6PathMtu destination => (s.clearIpv6PathMtu destination, [])
  | .applyDhcpAck yiaddr subnetMask router => (s.applyDhcpAck yiaddr subnetMask router, [])
  | .nextIpId => (s.nextIpId.1, [])
  | .setFirewall firewall => ({ s with firewall }, [])
  | .app f => ({ s with transports := f s.transports }, [])

def step (s : NetStack τ) (c : Call τ) : NetStack τ := (s.perform c).1

/-- The frames that a call emits. -/
def emitted (s : NetStack τ) (c : Call τ) : List Frame := (s.perform c).2

end steps

/-- A silent transport layer. -/
@[reducible] def silent : Transports Unit :=
  ⟨fun t _ => (t, []), fun t _ _ _ _ => (t, [])⟩

end ToyTcpip.NetStack
