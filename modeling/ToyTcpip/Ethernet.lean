import ToyTcpip.Ipv4

/-! Ethernet frames of `ethernet.rs`. -/
namespace ToyTcpip

structure MacAddress where
  bytes : Vector UInt8 6
  deriving DecidableEq, Repr

namespace MacAddress

def octets (mac : MacAddress) : List UInt8 := mac.bytes.toList

def isBroadcast (mac : MacAddress) : Bool := mac.bytes = Vector.replicate 6 0xFF

def isMulticast (mac : MacAddress) : Bool :=
  mac.bytes[0] &&& 0x01 ≠ 0 ∧ ¬mac.isBroadcast

def isUnicast (mac : MacAddress) : Bool := !mac.isMulticast && !mac.isBroadcast

def broadcast : MacAddress := ⟨Vector.replicate 6 0xFF⟩

def zero : MacAddress := ⟨Vector.replicate 6 0⟩

end MacAddress

/-- The six bytes at position `i` of a buffer that holds them. -/
def macAt (data : List UInt8) (i : ℕ) : MacAddress := ⟨Vector.ofFn fun j => byteAt data (i + j)⟩

def etherHeaderLen : ℕ := 14

def ethertypeIpv4 : ℕ := 0x0800

def ethertypeArp : ℕ := 0x0806

def ethertypeIpv6 : ℕ := 0x86DD

def ethertypeVlan : ℕ := 0x8100

def ethertypeMpls : ℕ := 0x8847

inductive EtherType where
  | ipv4
  | arp
  | ipv6
  | vlan
  | mpls
  | unknown (val : ℕ)
  deriving DecidableEq, Repr

def EtherType.fromU16 (val : ℕ) : EtherType :=
  if val = ethertypeIpv4 then .ipv4
  else if val = ethertypeArp then .arp
  else if val = ethertypeIpv6 then .ipv6
  else if val = ethertypeVlan then .vlan
  else if val = ethertypeMpls then .mpls
  else .unknown val

structure EthernetFrame where
  dstMac : MacAddress
  srcMac : MacAddress
  ethertype : EtherType
  payload : List UInt8
  deriving DecidableEq, Repr

namespace EthernetFrame

/-- `none` stands for the one error, a frame shorter than its header. -/
def parse (data : List UInt8) : Option EthernetFrame :=
  if data.length < etherHeaderLen then none
  else some ⟨macAt data 0, macAt data 6, .fromU16 (wordAt data 12), data.drop etherHeaderLen⟩

def serialize (dst src : MacAddress) (ethertype : ℕ) (payload : List UInt8) : List UInt8 :=
  dst.octets ++ src.octets ++ toBeBytes16 ethertype ++ payload

theorem macAt_octets (mac : MacAddress) (pre post : List UInt8) :
    macAt (pre ++ (mac.octets ++ post)) pre.length = mac := by
  obtain ⟨⟨l, hl⟩⟩ := mac
  unfold macAt
  congr 1
  ext i hi
  simp only [Vector.getElem_ofFn, MacAddress.octets, byteAt, List.getD_eq_getElem?_getD]
  rw [List.getElem?_append_right (by omega), Nat.add_sub_cancel_left,
    List.getElem?_append_left (by simpa [hl] using hi)]
  simp [hl, hi]

/-- A frame parses to what it was made of. -/
theorem parse_serialize {dst src : MacAddress} {ethertype : ℕ} {payload : List UInt8}
    (h : ethertype < 65536) :
    parse (serialize dst src ethertype payload) = some ⟨dst, src, .fromU16 ethertype, payload⟩ := by
  have hdst : dst.octets.length = 6 := by simp [MacAddress.octets]
  have hsrc : src.octets.length = 6 := by simp [MacAddress.octets]
  have hd : macAt (serialize dst src ethertype payload) 0 = dst := by
    have := macAt_octets dst [] (src.octets ++ (toBeBytes16 ethertype ++ payload))
    simpa [serialize] using this
  have hs : macAt (serialize dst src ethertype payload) 6 = src := by
    have := macAt_octets src dst.octets (toBeBytes16 ethertype ++ payload)
    simpa [serialize, hdst] using this
  have ht : wordAt (serialize dst src ethertype payload) 12 = ethertype := by
    have hget : ∀ i, byteAt (serialize dst src ethertype payload) (12 + i) =
        byteAt (toBeBytes16 ethertype ++ payload) i := by
      intro i
      simp only [byteAt, serialize, List.append_assoc, List.getD_eq_getElem?_getD]
      rw [← List.append_assoc, List.getElem?_append_right (by simp [hdst, hsrc])]
      simp [hdst, hsrc]
    have h0 := hget 0
    have h1 := hget 1
    rw [wordAt, h0, h1]
    simp [byteAt, toBeBytes16, beWord]
    omega
  rw [parse, if_neg (by simp [serialize, hdst, hsrc, toBeBytes16, etherHeaderLen]; omega), hd, hs,
    ht]
  congr 2
  exact List.drop_left' (by simp [hdst, hsrc, toBeBytes16, etherHeaderLen])

end EthernetFrame

end ToyTcpip
