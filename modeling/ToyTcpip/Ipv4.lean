import ToyTcpip.Checksum

/-! IPv4 packets: the parser of `ipv4.rs`. -/
namespace ToyTcpip

def ipv4MinHeaderLen : ℕ := 20

def ipv4MaxPayloadLen : ℕ := 65535 - ipv4MinHeaderLen

structure Ipv4Address where
  a : UInt8
  b : UInt8
  c : UInt8
  d : UInt8
  deriving DecidableEq, Repr

def Ipv4Address.octets (ip : Ipv4Address) : List UInt8 := [ip.a, ip.b, ip.c, ip.d]

inductive IpProtocol where
  | icmp
  | tcp
  | udp
  | other (v : UInt8)
  deriving DecidableEq, Repr

def IpProtocol.fromU8 (v : UInt8) : IpProtocol :=
  if v = 1 then .icmp else if v = 6 then .tcp else if v = 17 then .udp else .other v

def IpProtocol.toU8 : IpProtocol → UInt8
  | .icmp => 1
  | .tcp => 6
  | .udp => 17
  | .other v => v

@[simp] theorem IpProtocol.toU8_fromU8 (v : UInt8) : (fromU8 v).toU8 = v := by
  unfold fromU8
  split_ifs with h₁ h₂ h₃ <;> simp [toU8, *]

structure Ipv4Header where
  version : ℕ
  ihl : ℕ
  dscpEcn : UInt8
  totalLength : ℕ
  identification : ℕ
  dontFragment : Bool
  moreFragments : Bool
  fragmentOffset : ℕ
  ttl : UInt8
  protocol : IpProtocol
  checksum : ℕ
  srcIp : Ipv4Address
  dstIp : Ipv4Address
  deriving DecidableEq, Repr

structure Ipv4Packet where
  header : Ipv4Header
  payload : List UInt8
  deriving DecidableEq, Repr

inductive Ipv4Error where
  | packetTooShort (len : ℕ)
  | invalidVersion (version : ℕ)
  | invalidIhl (ihl : ℕ)
  | totalLengthMismatch (declared available : ℕ)
  | totalLengthSmallerThanHeader (totalLength headerLength : ℕ)
  | reservedFragmentFlagSet
  | nonFinalFragmentLengthNotMultipleOfEight (payloadLength : ℕ)
  | invalidChecksum (computed found : ℕ)
  deriving DecidableEq, Repr

/-- Byte `i` of a buffer. Every use below is inside the length checked before it. -/
def byteAt (data : List UInt8) (i : ℕ) : UInt8 := data.getD i 0

def wordAt (data : List UInt8) (i : ℕ) : ℕ := beWord (byteAt data i) (byteAt data (i + 1))

/-- `u32::from_be_bytes`. -/
def longAt (data : List UInt8) (i : ℕ) : ℕ := wordAt data i * 65536 + wordAt data (i + 2)

theorem wordAt_append {n : ℕ} (pre post : List UInt8) (h : n < 2 ^ 16) :
    wordAt (pre ++ (toBeBytes16 n ++ post)) pre.length = n := by
  simp [wordAt, byteAt, toBeBytes16, beWord]
  omega

theorem longAt_append {n : ℕ} (pre post : List UInt8) (h : n < 2 ^ 32) :
    longAt (pre ++ (toBeBytes32 n ++ post)) pre.length = n := by
  simp [longAt, wordAt, byteAt, toBeBytes32, beWord, add_assoc]
  omega

theorem longAt_of_drop {n i : ℕ} {data post : List UInt8} (h : data.drop i = toBeBytes32 n ++ post)
    (hn : n < 2 ^ 32) : longAt data i = n := by
  have hread := longAt_append [] post hn
  rw [List.nil_append, ← h] at hread
  simpa [longAt, wordAt, byteAt, add_assoc] using hread

def addressAt (data : List UInt8) (i : ℕ) : Ipv4Address :=
  ⟨byteAt data i, byteAt data (i + 1), byteAt data (i + 2), byteAt data (i + 3)⟩

/-- The header record read from a buffer long enough to hold it. -/
def Ipv4Header.read (data : List UInt8) : Ipv4Header :=
  let flagsFrag := wordAt data 6
  { version := (byteAt data 0).toNat / 16
    ihl := (byteAt data 0).toNat % 16
    dscpEcn := byteAt data 1
    totalLength := wordAt data 2
    identification := wordAt data 4
    dontFragment := flagsFrag &&& 0x4000 ≠ 0
    moreFragments := flagsFrag &&& 0x2000 ≠ 0
    fragmentOffset := flagsFrag &&& 0x1FFF
    ttl := byteAt data 8
    protocol := .fromU8 (byteAt data 9)
    checksum := wordAt data 10
    srcIp := addressAt data 12
    dstIp := addressAt data 16 }

def Ipv4Packet.parse (data : List UInt8) (checkChecksum : Bool) : Except Ipv4Error Ipv4Packet :=
  if data.length < ipv4MinHeaderLen then .error (.packetTooShort data.length)
  else
    let h := Ipv4Header.read data
    if h.version ≠ 4 then .error (.invalidVersion h.version)
    else if h.ihl < 5 then .error (.invalidIhl h.ihl)
    else
      let headerLen := h.ihl * 4
      if data.length < headerLen then .error (.packetTooShort data.length)
      else if h.totalLength < headerLen then
        .error (.totalLengthSmallerThanHeader h.totalLength headerLen)
      else if data.length < h.totalLength then
        .error (.totalLengthMismatch h.totalLength data.length)
      else if wordAt data 6 &&& 0x8000 ≠ 0 then .error .reservedFragmentFlagSet
      else if h.moreFragments ∧ (h.totalLength - headerLen) % 8 ≠ 0 then
        .error (.nonFinalFragmentLengthNotMultipleOfEight (h.totalLength - headerLen))
      else if checkChecksum ∧ ¬ verifyChecksum (data.take headerLen) then
        .error (.invalidChecksum (computeChecksum (data.take headerLen)) h.checksum)
      else .ok ⟨h, (data.take h.totalLength).drop headerLen⟩

end ToyTcpip
