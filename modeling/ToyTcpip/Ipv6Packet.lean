import Mathlib.Tactic
import ToyTcpip.Ethernet

/-! IPv6 addresses, packets and their transport checksum, of `ipv6.rs`. -/
namespace ToyTcpip

structure Ipv6Address where
  bytes : Vector UInt8 16
  deriving DecidableEq, Repr

def Ipv6Address.octets (ip : Ipv6Address) : List UInt8 := ip.bytes.toList

/-- `mask_address`: whole bytes are kept, the byte the prefix ends in loses its last bits, and the
rest is cleared. -/
def Ipv6Address.mask (ip : Ipv6Address) (len : ℕ) : Ipv6Address :=
  let len := min len 128
  let whole := len / 8
  let rem := len % 8
  ⟨Vector.ofFn fun i : Fin 16 =>
    if i.val < whole then ip.bytes[i]
    else if i.val = whole ∧ rem ≠ 0 then ip.bytes[i] &&& ((0xff : UInt8) <<< UInt8.ofNat (8 - rem))
    else 0⟩

namespace Ipv6Address

theorem mask_mask (ip : Ipv6Address) (len : ℕ) : (ip.mask len).mask len = ip.mask len := by
  simp only [mask, mk.injEq]
  ext i hi
  simp only [Vector.getElem_ofFn, Fin.getElem_fin]
  split_ifs
  · rfl
  · rw [UInt8.and_assoc, UInt8.and_self]
  · rfl

def unspecified : Ipv6Address := ⟨Vector.replicate 16 0⟩

def loopback : Ipv6Address := ⟨(Vector.replicate 16 0).set 15 1⟩

def isUnspecified (ip : Ipv6Address) : Bool := ip = unspecified

def isLoopback (ip : Ipv6Address) : Bool := ip = loopback

def isMulticast (ip : Ipv6Address) : Bool := ip.bytes[0] = 0xFF

def linkLocalAllNodes : Ipv6Address := ⟨(((Vector.replicate 16 0).set 0 0xff).set 1 0x02).set 15 1⟩

def linkLocalAllRouters : Ipv6Address :=
  ⟨(((Vector.replicate 16 0).set 0 0xff).set 1 0x02).set 15 2⟩

def isLinkLocal (ip : Ipv6Address) : Bool := ip.bytes[0] = 0xFE ∧ ip.bytes[1] &&& 0xC0 = 0x80

def solicitedNodeMulticast (ip : Ipv6Address) : Ipv6Address :=
  ⟨#v[0xff, 0x02, 0, 0, 0, 0, 0, 0, 0, 0, 0, 0x01, 0xff, ip.bytes[13], ip.bytes[14], ip.bytes[15]]⟩

end Ipv6Address

/-- The sixteen bytes at position `i` of a buffer that holds them. -/
def ipv6At (data : List UInt8) (i : ℕ) : Ipv6Address := ⟨Vector.ofFn fun j => byteAt data (i + j)⟩

def ipv6HeaderLen : ℕ := 40

def nextHeaderIcmpv6 : UInt8 := 58

structure Ipv6Header where
  payloadLength : ℕ
  nextHeader : UInt8
  hopLimit : UInt8
  srcIp : Ipv6Address
  dstIp : Ipv6Address
  deriving DecidableEq, Repr

structure Ipv6Packet where
  header : Ipv6Header
  payload : List UInt8
  deriving DecidableEq, Repr

inductive Ipv6Error where
  | packetTooShort (len : ℕ)
  | invalidVersion (version : ℕ)
  | payloadLengthMismatch (headerLen actualLen : ℕ)
  deriving DecidableEq, Repr

namespace Ipv6Packet

def parse (data : List UInt8) : Except Ipv6Error Ipv6Packet :=
  if data.length < ipv6HeaderLen then .error (.packetTooShort data.length)
  else
    let version := (byteAt data 0).toNat / 16
    if version ≠ 6 then .error (.invalidVersion version)
    else
      let payloadLength := wordAt data 4
      let available := data.length - ipv6HeaderLen
      if available < payloadLength then .error (.payloadLengthMismatch payloadLength available)
      else
        .ok ⟨⟨payloadLength, byteAt data 6, byteAt data 7, ipv6At data 8, ipv6At data 24⟩,
          (data.drop ipv6HeaderLen).take payloadLength⟩

/-- Every payload below fits the length field, past which the source panics. -/
def serialize (srcIp dstIp : Ipv6Address) (nextHeader hopLimit : UInt8) (payload : List UInt8) :
    List UInt8 :=
  toBeBytes32 0x60000000 ++ toBeBytes16 payload.length ++ [nextHeader, hopLimit] ++ srcIp.octets ++
    dstIp.octets ++ payload

end Ipv6Packet

def computeIpv6TransportChecksum (srcIp dstIp : Ipv6Address) (nextHeader : UInt8)
    (payload : List UInt8) : ℕ :=
  computeChecksum (srcIp.octets ++ dstIp.octets ++ toBeBytes32 payload.length ++
    [0, 0, 0, nextHeader] ++ payload)

section wire

variable {srcIp dstIp : Ipv6Address} {nextHeader hopLimit : UInt8} {payload : List UInt8}

@[simp] theorem Ipv6Address.length_octets (ip : Ipv6Address) : ip.octets.length = 16 := by
  simp [Ipv6Address.octets]

theorem ipv6At_octets (ip : Ipv6Address) (pre post : List UInt8) :
    ipv6At (pre ++ (ip.octets ++ post)) pre.length = ip := by
  obtain ⟨⟨l, hl⟩⟩ := ip
  unfold ipv6At
  congr 1
  ext i hi
  simp only [Vector.getElem_ofFn, Ipv6Address.octets, byteAt, List.getD_eq_getElem?_getD]
  rw [List.getElem?_append_right (by omega), Nat.add_sub_cancel_left,
    List.getElem?_append_left (by simpa [hl] using hi)]
  simp [hl, hi]

theorem Ipv6Packet.length_serialize :
    (Ipv6Packet.serialize srcIp dstIp nextHeader hopLimit payload).length =
      40 + payload.length := by
  simp [Ipv6Packet.serialize, toBeBytes16, toBeBytes32]
  omega

end wire

end ToyTcpip
