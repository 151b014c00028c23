import ToyTcpip.Bytes
import ToyTcpip.Ipv4

/-! BFD control packets and their authentication sections (`bfd.rs`). -/
namespace ToyTcpip.Bfd

inductive BfdState where
  | adminDown
  | down
  | init
  | up
  deriving DecidableEq, Repr

namespace BfdState

def fromU8 (val : UInt8) : BfdState :=
  if val = 0 then .adminDown
  else if val = 1 then .down
  else if val = 2 then .init
  else if val = 3 then .up
  else .down

def toU8 : BfdState → UInt8
  | .adminDown => 0
  | .down => 1
  | .init => 2
  | .up => 3

end BfdState

def bfdMinPacketLen : ℕ := 24

inductive BfdAuthHeader where
  | simplePassword (keyId : UInt8) (password : List UInt8)
  | keyedMd5 (meticulous : Bool) (keyId : UInt8) (sequenceNumber : UInt32)
    (authKeyHash : Vector UInt8 16)
  | keyedSha1 (meticulous : Bool) (keyId : UInt8) (sequenceNumber : UInt32)
    (authKeyHash : Vector UInt8 20)
  | raw (authType keyId : UInt8) (data : List UInt8)
  deriving DecidableEq

namespace BfdAuthHeader

def serialize : BfdAuthHeader → List UInt8
  | .simplePassword keyId password =>
    [1, UInt8.ofNat (3 + min password.length 16), keyId] ++ password.take (min password.length 16)
  | .keyedMd5 meticulous keyId sequenceNumber authKeyHash =>
    [if meticulous then 3 else 2, 24, keyId, 0] ++
      (toBeBytes32 sequenceNumber.toNat ++ authKeyHash.toList)
  | .keyedSha1 meticulous keyId sequenceNumber authKeyHash =>
    [if meticulous then 5 else 4, 28, keyId, 0] ++
      (toBeBytes32 sequenceNumber.toNat ++ authKeyHash.toList)
  | .raw authType keyId data => [authType, UInt8.ofNat (3 + data.length), keyId] ++ data

def parse (data : List UInt8) : Option BfdAuthHeader :=
  if data.length < 3 then none
  else
    let authType := byteAt data 0
    let authLen := (byteAt data 1).toNat
    let keyId := byteAt data 2
    if authLen < 3 ∨ data.length < authLen then none
    else if authType = 1 then
      if 4 ≤ authLen ∧ authLen ≤ 19 then
        some (.simplePassword keyId ((data.take authLen).drop 3))
      else none
    else if authType = 2 ∨ authType = 3 then
      if authLen = 24 then
        some (.keyedMd5 (authType = 3) keyId (UInt32.ofNat (longAt data 4))
          (.ofFn fun i => byteAt data (8 + i)))
      else none
    else if authType = 4 ∨ authType = 5 then
      if authLen = 28 then
        some (.keyedSha1 (authType = 5) keyId (UInt32.ofNat (longAt data 4))
          (.ofFn fun i => byteAt data (8 + i)))
      else none
    else some (.raw authType keyId ((data.take authLen).drop 3))

/-- The section is one the parser can give. -/
def Fits : BfdAuthHeader → Prop
  | .simplePassword _ password => 1 ≤ password.length ∧ password.length ≤ 16
  | .keyedMd5 .. | .keyedSha1 .. => True
  | .raw authType _ data => authType ∉ [1, 2, 3, 4, 5] ∧ data.length ≤ 228

end BfdAuthHeader

structure BfdControlPacket where
  version : UInt8
  diagnostic : UInt8
  state : BfdState
  poll : Bool
  final : Bool
  cpi : Bool
  auth : Bool
  demand : Bool
  multipoint : Bool
  detectMult : UInt8
  length : UInt8
  myDiscriminator : UInt32
  yourDiscriminator : UInt32
  desiredMinTxIntervalUs : UInt32
  requiredMinRxIntervalUs : UInt32
  requiredMinEchoRxIntervalUs : UInt32
  authHeader : Option BfdAuthHeader
  deriving DecidableEq

inductive BfdError where
  | packetTooShort (len : ℕ)
  | invalidVersion (version : UInt8)
  | invalidLength (length : UInt8)
  | pollFinalBothSet
  | unsupportedAuthentication
  | unsupportedMultipoint
  | zeroDetectMultiplier
  | zeroMyDiscriminator
  deriving DecidableEq, Repr

namespace BfdControlPacket

def parse (data : List UInt8) : Except BfdError BfdControlPacket :=
  if data.length < bfdMinPacketLen then .error (.packetTooShort data.length)
  else
    let version := byteAt data 0 >>> 5
    let b1 := byteAt data 1
    let poll := b1 &&& 0x20 ≠ 0
    let final := b1 &&& 0x10 ≠ 0
    let auth := b1 &&& 0x04 ≠ 0
    let multipoint := b1 &&& 0x01 ≠ 0
    let length := byteAt data 3
    let minLength := if auth then 26 else bfdMinPacketLen
    if version ≠ 1 then .error (.invalidVersion version)
    else if length.toNat < minLength ∨ data.length < length.toNat then
      .error (.invalidLength length)
    else if poll ∧ final then .error .pollFinalBothSet
    else if multipoint then .error .unsupportedMultipoint
    else if byteAt data 2 = 0 then .error .zeroDetectMultiplier
    else if longAt data 4 = 0 then .error .zeroMyDiscriminator
    else
      let packet (authHeader : Option BfdAuthHeader) : BfdControlPacket :=
        { version
          diagnostic := byteAt data 0 &&& 0x1F
          state := .fromU8 ((b1 >>> 6) &&& 0x03)
          poll, final
          cpi := b1 &&& 0x08 ≠ 0
          auth
          demand := b1 &&& 0x02 ≠ 0
          multipoint
          detectMult := byteAt data 2
          length
          myDiscriminator := UInt32.ofNat (longAt data 4)
          yourDiscriminator := UInt32.ofNat (longAt data 8)
          desiredMinTxIntervalUs := UInt32.ofNat (longAt data 12)
          requiredMinRxIntervalUs := UInt32.ofNat (longAt data 16)
          requiredMinEchoRxIntervalUs := UInt32.ofNat (longAt data 20)
          authHeader }
      if auth then
        -- A section that is truncated or malformed cannot be verified, and is refused.
        match BfdAuthHeader.parse (data.drop bfdMinPacketLen) with
        | some header => .ok (packet (some header))
        | none => .error .unsupportedAuthentication
      else .ok (packet none)

/-- The second byte of a packet. -/
def flags (state : BfdState) (poll final cpi auth demand multipoint : Bool) : UInt8 :=
  ((state.toU8 &&& 0x03) <<< 6) ||| (if poll then 0x20 else 0) ||| (if final then 0x10 else 0) |||
    (if cpi then 0x08 else 0) ||| (if auth then 0x04 else 0) ||| (if demand then 0x02 else 0) |||
    (if multipoint then 0x01 else 0)

def serialize (p : BfdControlPacket) : List UInt8 :=
  let authBytes := (p.authHeader.map BfdAuthHeader.serialize).getD []
  let totalLen := bfdMinPacketLen + authBytes.length
  [((p.version &&& 0x07) <<< 5) ||| (p.diagnostic &&& 0x1F),
    flags p.state p.poll p.final p.cpi (p.auth || p.authHeader.isSome) p.demand p.multipoint,
    p.detectMult, max (UInt8.ofNat totalLen) (UInt8.ofNat bfdMinPacketLen)] ++
    (toBeBytes32 p.myDiscriminator.toNat ++ (toBeBytes32 p.yourDiscriminator.toNat ++
      (toBeBytes32 p.desiredMinTxIntervalUs.toNat ++ (toBeBytes32 p.requiredMinRxIntervalUs.toNat ++
        (toBeBytes32 p.requiredMinEchoRxIntervalUs.toNat ++ authBytes)))))

def buildControl (state : BfdState) (myDisc yourDisc intervalUs : UInt32) : BfdControlPacket :=
  { version := 1
    diagnostic := 0
    state
    poll := false
    final := false
    cpi := false
    auth := false
    demand := false
    multipoint := false
    detectMult := 3
    length := 24
    myDiscriminator := myDisc
    yourDiscriminator := yourDisc
    desiredMinTxIntervalUs := intervalUs
    requiredMinRxIntervalUs := intervalUs
    requiredMinEchoRxIntervalUs := 0
    authHeader := none }

def buildAuthenticated (state : BfdState) (myDisc yourDisc intervalUs : UInt32)
    (authHeader : BfdAuthHeader) : BfdControlPacket :=
  { buildControl state myDisc yourDisc intervalUs with auth := true, authHeader := some authHeader }

/-! ### What is written is read -/

theorem flags_bits (state : BfdState) (poll final cpi auth demand multipoint : Bool) :
    let b := flags state poll final cpi auth demand multipoint
    BfdState.fromU8 ((b >>> 6) &&& 0x03) = state ∧ (b &&& 0x20 ≠ 0 ↔ poll) ∧
      (b &&& 0x10 ≠ 0 ↔ final) ∧
      (b &&& 0x08 ≠ 0 ↔ cpi) ∧ (b &&& 0x04 ≠ 0 ↔ auth) ∧ (b &&& 0x02 ≠ 0 ↔ demand) ∧
      (b &&& 0x01 ≠ 0 ↔ multipoint) := by
  revert poll final cpi auth demand multipoint
  cases state <;> decide +kernel

example : BfdState.fromU8 ((flags .init true false false false true false >>> 6) &&& 0x03) =
    .init := by decide +kernel

theorem first_byte {version diagnostic : UInt8} (hv : version = 1) (hd : diagnostic < 32) :
    let b := ((version &&& 0x07) <<< 5) ||| (diagnostic &&& 0x1F)
    b >>> 5 = version ∧ b &&& 0x1F = diagnostic := by
  subst hv
  exact forall_uint8 (P := fun d => d < 32 →
    ((((1 : UInt8) &&& 0x07) <<< 5) ||| (d &&& 0x1F)) >>> 5 = 1 ∧
    ((((1 : UInt8) &&& 0x07) <<< 5) ||| (d &&& 0x1F)) &&& 0x1F = d)
    (by decide +kernel) diagnostic hd

end BfdControlPacket

namespace BfdAuthHeader

variable {h : BfdAuthHeader}

theorem length_serialize (hf : h.Fits) : 4 ≤ h.serialize.length + 1 ∧ h.serialize.length ≤ 231 := by
  cases h with
  | simplePassword keyId password =>
    obtain ⟨hpos, hle⟩ := hf
    simp [serialize]
    omega
  | keyedMd5 | keyedSha1 => simp [serialize, toBeBytes32]
  | raw authType keyId data =>
    obtain ⟨-, hle⟩ := hf
    simp [serialize]
    omega

theorem hash_append {n : ℕ} (pre : List UInt8) (hash : Vector UInt8 n) :
    (Vector.ofFn fun i : Fin n => byteAt (pre ++ hash.toList) (pre.length + i)) = hash := by
  ext i hi
  simp [byteAt]

theorem parse_serialize (hf : h.Fits) : parse h.serialize = some h := by
  cases h with
  | simplePassword keyId password =>
    obtain ⟨hpos, hle⟩ := hf
    have hlen : (UInt8.ofNat (3 + password.length)).toNat = 3 + password.length := by
      rw [UInt8.toNat_ofNat']
      omega
    rw [serialize, Nat.min_eq_left hle, List.take_length]
    generalize UInt8.ofNat (3 + password.length) = len at hlen
    simp [parse, byteAt, hlen, Nat.add_comm 3]
    omega
  | keyedMd5 meticulous keyId sequenceNumber hash =>
    have hseq := longAt_append [if meticulous then 3 else 2, 24, keyId, 0] hash.toList
      sequenceNumber.toNat_lt
    have hhash := hash_append ([if meticulous then 3 else 2, 24, keyId, 0] ++
      toBeBytes32 sequenceNumber.toNat) hash
    cases meticulous <;> simp_all [parse, serialize, byteAt, toBeBytes32]
  | keyedSha1 meticulous keyId sequenceNumber hash =>
    have hseq := longAt_append [if meticulous then 5 else 4, 28, keyId, 0] hash.toList
      sequenceNumber.toNat_lt
    have hhash := hash_append ([if meticulous then 5 else 4, 28, keyId, 0] ++
      toBeBytes32 sequenceNumber.toNat) hash
    cases meticulous <;> simp_all [parse, serialize, byteAt, toBeBytes32]
  | raw authType keyId data =>
    obtain ⟨htype, hle⟩ := hf
    have hlen : (UInt8.ofNat (3 + data.length)).toNat = 3 + data.length := by
      rw [UInt8.toNat_ofNat']
      omega
    rw [serialize]
    generalize UInt8.ofNat (3 + data.length) = len at hlen
    simp_all [parse, byteAt, Nat.add_comm 3]

end BfdAuthHeader

namespace BfdControlPacket

variable {p : BfdControlPacket}

/-- The bytes after the fixed part. -/
def authBytes (p : BfdControlPacket) : List UInt8 :=
  (p.authHeader.map BfdAuthHeader.serialize).getD []

/-- The packet is one the parser can give. -/
structure Fits (p : BfdControlPacket) : Prop where
  version : p.version = 1
  diagnostic : p.diagnostic < 32
  pollFinal : ¬ (p.poll ∧ p.final)
  multipoint : p.multipoint = false
  detectMult : p.detectMult ≠ 0
  myDiscriminator : p.myDiscriminator ≠ 0
  auth : p.auth = p.authHeader.isSome
  authHeader : ∀ h ∈ p.authHeader, h.Fits
  length : p.length.toNat = bfdMinPacketLen + p.authBytes.length

theorem length_serialize (p : BfdControlPacket) :
    p.serialize.length = bfdMinPacketLen + p.authBytes.length := by
  simp only [serialize, authBytes, toBeBytes32, List.length_append, List.length_cons,
    List.length_nil, bfdMinPacketLen]
  omega

theorem longs_serialize (p : BfdControlPacket) :
    longAt p.serialize 4 = p.myDiscriminator.toNat ∧
    longAt p.serialize 8 = p.yourDiscriminator.toNat ∧
      longAt p.serialize 12 = p.desiredMinTxIntervalUs.toNat ∧
      longAt p.serialize 16 = p.requiredMinRxIntervalUs.toNat ∧
      longAt p.serialize 20 = p.requiredMinEchoRxIntervalUs.toNat := by
  refine ⟨longAt_of_drop rfl p.myDiscriminator.toNat_lt,
    longAt_of_drop rfl p.yourDiscriminator.toNat_lt,
    longAt_of_drop rfl p.desiredMinTxIntervalUs.toNat_lt,
    longAt_of_drop rfl p.requiredMinRxIntervalUs.toNat_lt,
    longAt_of_drop rfl p.requiredMinEchoRxIntervalUs.toNat_lt⟩

theorem drop_serialize (p : BfdControlPacket) :
    p.serialize.drop bfdMinPacketLen = p.authBytes := rfl

theorem auth_of_parse {data : List UInt8} {q : BfdControlPacket} (h : parse data = .ok q) :
    q.auth = decide (byteAt data 1 &&& 0x04 ≠ 0) := by
  simp only [parse] at h
  split_ifs at h with _ _ _ _ _ _ _ hauth
  · split at h
    · cases h
      rfl
    · cases h
  · cases h
    rfl

/-- A packet that carries a section says so on the wire. -/
theorem auth_of_parse_serialize {q : BfdControlPacket} (h : parse p.serialize = .ok q) :
    q.auth = (p.auth || p.authHeader.isSome) := by
  have hbits := (flags_bits p.state p.poll p.final p.cpi (p.auth || p.authHeader.isSome) p.demand
    p.multipoint).2.2.2.2.1
  rw [auth_of_parse h, Bool.eq_iff_iff, decide_eq_true_eq]
  exact hbits

theorem length_byte (hf : p.Fits) : byteAt p.serialize 3 = p.length := by
  have hlen := hf.length
  have hp := p.length.toNat_lt
  have hof : UInt8.ofNat (bfdMinPacketLen + p.authBytes.length) = p.length := by
    rw [← hlen, UInt8.ofNat_toNat]
  have hle : UInt8.ofNat bfdMinPacketLen ≤ p.length := by
    rw [UInt8.le_iff_toNat_le, hlen]
    exact Nat.le_add_right _ _
  calc byteAt p.serialize 3
      = max (UInt8.ofNat (bfdMinPacketLen + p.authBytes.length)) (UInt8.ofNat bfdMinPacketLen) :=
        rfl
    _ = p.length := by
      rw [hof]
      show (if p.length ≤ UInt8.ofNat bfdMinPacketLen then
        UInt8.ofNat bfdMinPacketLen else p.length) = _
      split_ifs with h
      · exact UInt8.le_antisymm hle h
      · rfl

theorem length_authBytes (hf : p.Fits) : if p.auth then
    26 ≤ p.length.toNat else p.length.toNat = 24 := by
  rw [hf.auth, hf.length, authBytes]
  cases hheader : p.authHeader with
  | none => rfl
  | some h =>
    have hlen := (BfdAuthHeader.length_serialize (hf.authHeader h hheader)).1
    show 26 ≤ 24 + h.serialize.length
    omega

theorem parse_serialize (hf : p.Fits) : parse p.serialize = .ok p := by
  obtain ⟨hmy, hyour, htx, hrx, hecho⟩ := longs_serialize p
  obtain ⟨hversion, hdiagnostic⟩ := first_byte hf.version hf.diagnostic
  obtain ⟨hstate, hpoll, hfinal, hcpi, hauth, hdemand, hmultipoint⟩ :=
    flags_bits p.state p.poll p.final p.cpi p.auth p.demand p.multipoint
  have h₀ : byteAt p.serialize 0 = ((p.version &&& 0x07) <<< 5) ||| (p.diagnostic &&& 0x1F) := rfl
  have hself : (p.auth || p.authHeader.isSome) = p.auth := by rw [← hf.auth, Bool.or_self]
  have h₁ : byteAt p.serialize 1 =
      flags p.state p.poll p.final p.cpi p.auth p.demand p.multipoint := by
    rw [← hself]
    rfl
  have h₂ : byteAt p.serialize 2 = p.detectMult := rfl
  have hlength : ¬ (p.length.toNat < (if p.auth then 26 else bfdMinPacketLen) ∨
      bfdMinPacketLen + p.authBytes.length < p.length.toNat) := by
    have hsection := length_authBytes hf
    rw [hf.length] at hsection ⊢
    split_ifs at hsection ⊢ <;> omega
  have hdisc : p.myDiscriminator.toNat ≠ 0 := fun h => hf.myDiscriminator (UInt32.toNat_inj.mp h)
  simp only [parse, length_serialize, h₀, h₁, h₂, length_byte hf, hversion, hdiagnostic, hmy,
    hyour, htx, hrx, hecho, hstate, hpoll, hfinal, hcpi, hauth, hdemand, hmultipoint,
    drop_serialize, UInt32.ofNat_toNat]
  rw [if_neg (by omega), if_neg (not_not.mpr hf.version), if_neg hlength, if_neg hf.pollFinal,
    if_neg (by rw [hf.multipoint]; exact Bool.false_ne_true), if_neg hf.detectMult, if_neg hdisc]
  cases hheader : p.authHeader with
  | none =>
    have hoff : p.auth = false := by rw [hf.auth, hheader]; rfl
    rw [if_neg (by rw [hoff]; exact Bool.false_ne_true)]
    simp [← hheader]
  | some h =>
    have hon : p.auth = true := by rw [hf.auth, hheader]; rfl
    have hparse : BfdAuthHeader.parse p.authBytes = some h := by
      rw [authBytes, hheader]
      exact BfdAuthHeader.parse_serialize (hf.authHeader h hheader)
    rw [if_pos hon, hparse]
    simp [← hheader]

end BfdControlPacket
end ToyTcpip.Bfd
