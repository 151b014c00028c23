import ToyTcpip.ChecksumLaws

/-! UDP datagrams of `udp.rs` and the checksum laws that they and the other protocols rest on. -/
namespace ToyTcpip

def udpHeaderLen : ℕ := 8

inductive UdpError where
  | datagramTooShort (len : ℕ)
  | lengthTooShort (declared : ℕ)
  | lengthMismatch (declared available : ℕ)
  | invalidChecksum (found : ℕ)
  | payloadTooLarge (payloadLength : ℕ)
  deriving DecidableEq

structure UdpDatagram where
  srcPort : ℕ
  dstPort : ℕ
  length : ℕ
  checksum : ℕ
  payload : List UInt8
  deriving DecidableEq

namespace UdpDatagram

def parse (srcIp dstIp : Ipv4Address) (data : List UInt8) (checkChecksum : Bool) :
    Except UdpError UdpDatagram :=
  if data.length < udpHeaderLen then .error (.datagramTooShort data.length)
  else
    let length := wordAt data 4
    let checksum := wordAt data 6
    if length < udpHeaderLen then .error (.lengthTooShort length)
    else if data.length < length then .error (.lengthMismatch length data.length)
    else if checkChecksum ∧ checksum ≠ 0 ∧
        ¬ verifyIpv4TransportChecksum srcIp.octets dstIp.octets 17 (data.take length) then
      .error (.invalidChecksum checksum)
    else .ok ⟨wordAt data 0, wordAt data 2, length, checksum, (data.take length).drop udpHeaderLen⟩

/-- The bytes of a datagram with the checksum field as given. -/
def bytes (srcPort dstPort : UInt16) (csum : ℕ) (payload : List UInt8) : List UInt8 :=
  (toBeBytes16 srcPort.toNat ++ toBeBytes16 dstPort.toNat ++
    toBeBytes16 (udpHeaderLen + payload.length)) ++
    (toBeBytes16 csum ++ payload)

def trySerialize (srcIp dstIp : Ipv4Address) (srcPort dstPort : UInt16) (payload : List UInt8) :
    Except UdpError (List UInt8) :=
  if 65535 < udpHeaderLen + payload.length then .error (.payloadTooLarge payload.length)
  else
    let csum := computeIpv4TransportChecksum srcIp.octets dstIp.octets 17
      (bytes srcPort dstPort 0 payload)
    .ok (bytes srcPort dstPort csum payload)

variable {srcIp dstIp : Ipv4Address} {srcPort dstPort : UInt16} {payload data : List UInt8}

theorem length_bytes (csum : ℕ) : (bytes srcPort dstPort csum payload).length =
    8 + payload.length := by
  rw [bytes, length_around]
  rfl

theorem parse_bytes {csum : ℕ} (h : udpHeaderLen + payload.length ≤ 65535) (hlt : csum < 65536)
    (hver : verifyIpv4TransportChecksum srcIp.octets dstIp.octets 17
      (bytes srcPort dstPort csum payload) =
      true) :
    parse srcIp dstIp (bytes srcPort dstPort csum payload) true =
      .ok ⟨srcPort.toNat, dstPort.toNat, udpHeaderLen + payload.length, csum, payload⟩ := by
  have hsrc : wordAt (bytes srcPort dstPort csum payload) 0 = srcPort.toNat :=
    beWord_toBeBytes16 srcPort.toNat_lt
  have hdst : wordAt (bytes srcPort dstPort csum payload) 2 = dstPort.toNat :=
    beWord_toBeBytes16 dstPort.toNat_lt
  have hlength : wordAt (bytes srcPort dstPort csum payload) 4 = udpHeaderLen + payload.length :=
    beWord_toBeBytes16 (Nat.lt_succ_of_le h)
  have hcsum : wordAt (bytes srcPort dstPort csum payload) 6 = csum := beWord_toBeBytes16 hlt
  have hall : (bytes srcPort dstPort csum payload).length = udpHeaderLen + payload.length :=
    length_bytes csum
  rw [parse, hall, hlength, hcsum, hsrc, hdst]
  dsimp only
  rw [List.take_of_length_le hall.le, if_neg (by omega), if_neg (by omega), if_neg (by omega),
    if_neg (by simp [hver])]
  rfl

/-- What is written carries a checksum that is not zero and is read back with it verified. -/
theorem parse_trySerialize (h : udpHeaderLen + payload.length ≤ 65535) :
    ∃ csum, csum ≠ 0 ∧
      trySerialize srcIp dstIp srcPort dstPort payload = .ok (bytes srcPort dstPort csum payload) ∧
      parse srcIp dstIp (bytes srcPort dstPort csum payload) true =
        .ok ⟨srcPort.toNat, dstPort.toNat, udpHeaderLen + payload.length, csum, payload⟩ := by
  obtain ⟨hver, hne⟩ := @verifyIpv4TransportChecksum_field
    (toBeBytes16 srcPort.toNat ++ toBeBytes16 dstPort.toNat ++
      toBeBytes16 (udpHeaderLen + payload.length))
    payload srcIp dstIp 17 (by simp [toBeBytes16]) h
  have hlt := (@computeIpv4TransportChecksum_spec srcIp dstIp 17 (bytes srcPort dstPort 0 payload)
    (by rwa [length_bytes])).1
  exact ⟨_, hne rfl, if_neg (not_lt.mpr h), parse_bytes h hlt hver⟩

end UdpDatagram

/-- A checksum written where a zeroed field stood verifies, the checksum of a buffer is that of its
parts added with the carry brought round, and what changes the sum of the words modulo 65535 is
rejected; the same holds under a pseudo-header, where the checksum of UDP is not zero. -/
theorem internet_checksum :
    (∀ pre post : List UInt8, pre.length % 2 = 0 → pre.length + 2 + post.length < 131072 →
      verifyChecksum (pre ++ (toBeBytes16 (computeChecksum (pre ++ (toBeBytes16 0 ++ post))) ++
        post)) =
        true) ∧
    (∀ pre post : List UInt8, pre.length % 2 = 0 → (pre ++ post).length < 131072 →
      65535 - computeChecksum (pre ++ post) =
        onesAdd (65535 - computeChecksum pre) (65535 - computeChecksum post)) ∧
    (∀ data data' : List UInt8, data.length < 131072 → data'.length < 131072 →
      verifyChecksum data = true → wordSum data' % 65535 ≠ wordSum data % 65535 →
      verifyChecksum data' = false) ∧
    (∀ (srcIp dstIp : Ipv4Address) (protocol : UInt8) (pre post : List UInt8), pre.length % 2 = 0 →
      pre.length + 2 + post.length ≤ 65535 →
      let csum := computeIpv4TransportChecksum srcIp.octets dstIp.octets protocol
        (pre ++ (toBeBytes16 0 ++ post))
      verifyIpv4TransportChecksum srcIp.octets dstIp.octets protocol (pre ++
        (toBeBytes16 csum ++ post)) =
        true ∧ (protocol = 17 → csum ≠ 0)) ∧
    (∀ (srcIp dstIp srcIp' dstIp' : Ipv4Address) (protocol protocol' : UInt8)
      (segment segment' : List UInt8),
      segment.length ≤ 65535 → segment'.length ≤ 65535 →
      verifyIpv4TransportChecksum srcIp.octets dstIp.octets protocol segment = true →
      transportSum srcIp' dstIp' protocol' segment' % 65535 ≠
        transportSum srcIp dstIp protocol segment % 65535 →
      verifyIpv4TransportChecksum srcIp'.octets dstIp'.octets protocol' segment' = false) ∧
    ∀ (srcIp dstIp : Ipv4Address) (srcPort dstPort : UInt16) (payload : List UInt8),
      udpHeaderLen + payload.length ≤ 65535 →
      ∃ csum data, UdpDatagram.trySerialize srcIp dstIp srcPort dstPort payload =
        .ok data ∧ csum ≠ 0 ∧
        UdpDatagram.parse srcIp dstIp data true =
          .ok ⟨srcPort.toNat, dstPort.toNat, udpHeaderLen + payload.length, csum, payload⟩ := by
  refine ⟨fun pre post => verifyChecksum_computed, fun pre post => computeChecksum_append, ?_,
    fun srcIp dstIp protocol pre post => verifyIpv4TransportChecksum_field, ?_, ?_⟩
  · intro data data' h h' hver hne
    rw [← Bool.not_eq_true, verifyChecksum_iff h']
    exact fun hbalanced => hne (hbalanced.trans ((verifyChecksum_iff h).mp hver).symm)
  · intro srcIp dstIp srcIp' dstIp' protocol protocol' segment segment' h h' hver hne
    rw [← Bool.not_eq_true, verifyIpv4TransportChecksum_iff h']
    exact fun hbalanced => hne (hbalanced.trans ((verifyIpv4TransportChecksum_iff h).mp hver).symm)
  · intro srcIp dstIp srcPort dstPort payload h
    obtain ⟨csum, hne, hwritten, hread⟩ := UdpDatagram.parse_trySerialize h
    exact ⟨csum, _, hwritten, hne, hread⟩

end ToyTcpip
