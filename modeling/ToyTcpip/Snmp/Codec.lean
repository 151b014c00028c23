import ToyTcpip.Snmp.Message

/-! What the serializer of `snmp.rs` emits and what its parser accepts. -/
namespace ToyTcpip.Snmp

open Checked (index slice bind_eq_ok bind_of_eq_ok ite_error_eq_ok)
open Utf8 (asBytes fromUtf8 fromUtf8Lossy)

/-! ### Values with a known tag -/

section expected

variable {tag : UInt8} {data body rest : List UInt8} {val : BitVec 32} {n : ℕ}

theorem length_le_encodeTlv (tag : UInt8) (body : List UInt8) :
    body.length ≤ (encodeTlv tag body).length := by
  rw [encodeTlv_length]
  omega

theorem decodeBerTlv_whole (hfit : body.length + 10 < 2 ^ 64) :
    decodeBerTlv (encodeTlv tag body) = .ok (tag, body, (encodeTlv tag body).length) := by
  have h := decodeBerTlv_encodeTlv tag hfit []
  rwa [List.append_nil] at h

/-- A value that takes all of the data. -/
theorem eq_encodeTlv_of_decode (h : decodeBerTlv data = .ok (tag, body, n)) (hn : n = data.length) :
    data = encodeTlv tag body := by
  obtain ⟨-, -, hdata⟩ := decodeBerTlv_eq_ok h
  rw [hn, List.drop_length, List.append_nil] at hdata
  exact hdata

theorem expectTlv_encodeTlv (hfit : body.length + 10 < 2 ^ 64) (rest : List UInt8) :
    expectTlv tag (encodeTlv tag body ++ rest) = .ok (body, rest) := by
  have hslice := Checked.slice_middle (ε := SnmpError) (encodeTlv tag body) rest []
  rw [List.append_nil, ← List.length_append] at hslice
  rw [expectTlv, decodeBerTlv_encodeTlv tag hfit, Checked.ok_bind]
  simp only [ne_eq, not_true_eq_false, if_false]
  rw [hslice, Checked.ok_bind]

theorem expectTlv_eq_ok (h : expectTlv tag data = .ok (body, rest)) :
    data = encodeTlv tag body ++ rest := by
  obtain ⟨⟨t, b, n⟩, hdec, h⟩ := bind_eq_ok.mp h
  obtain ⟨htag, h⟩ := ite_error_eq_ok.mp h
  obtain ⟨r, hslice, h⟩ := bind_eq_ok.mp h
  cases h
  obtain rfl : t = tag := by simpa using htag
  obtain ⟨-, hle, hdata⟩ := decodeBerTlv_eq_ok hdec
  obtain ⟨hlen, -, hdrop⟩ := Checked.drop_of_slice hslice
  rw [List.drop_length, List.append_nil] at hdrop
  rw [← hdrop]
  exact hdata

theorem integerContents_length (val : BitVec 32) : (integerContents val).length ≤ 4 := by
  have hlen := BigEndian.length_trim_le signFill (BigEndian.bytes 4 val.toNat)
  rw [BigEndian.length_bytes] at hlen
  exact hlen

theorem expectInteger_encode (val : BitVec 32) (rest : List UInt8) :
    expectInteger (encodeBerInteger val ++ rest) = .ok (val, rest) := by
  have hlen := integerContents_length val
  rw [expectInteger, encodeBerInteger, expectTlv_encodeTlv (by omega), Checked.ok_bind,
    decodeBerInteger_contents, Checked.ok_bind]

theorem expectInteger_eq_ok (h : expectInteger data = .ok (val, rest)) :
    data = encodeBerInteger val ++ rest := by
  obtain ⟨⟨body, r⟩, htlv, h⟩ := bind_eq_ok.mp h
  obtain ⟨v, hdec, h⟩ := bind_eq_ok.mp h
  cases h
  rw [encodeBerInteger, integerContents_of_decode hdec]
  exact expectTlv_eq_ok htlv

end expected

/-! ### Values -/

theorem decodeBerUnsigned32_contents (val : BitVec 32) :
    decodeBerUnsigned32 (unsignedContents (val.setWidth 64)) = .ok val := by
  have hval := val.isLt
  have hnat : (val.setWidth 64).toNat = val.toNat := by
    rw [BitVec.toNat_setWidth]
    omega
  rw [decodeBerUnsigned32, decodeBerUnsigned_contents, Checked.ok_bind, hnat, if_neg (by omega),
    BitVec.ofNat_toNat, BitVec.setWidth_eq]

theorem unsignedContents_of_decode32 {body : List UInt8} {val : BitVec 32}
    (h : decodeBerUnsigned32 body = .ok val) : unsignedContents (val.setWidth 64) = body := by
  obtain ⟨wide, hdec, h⟩ := bind_eq_ok.mp h
  obtain ⟨hsmall, h⟩ := ite_error_eq_ok.mp h
  cases h
  rw [← unsignedContents_of_decode hdec]
  congr 1
  apply BitVec.eq_of_toNat_eq
  rw [BitVec.toNat_setWidth, BitVec.toNat_ofNat]
  omega

/-- The identifiers a value holds. -/
def SnmpValue.oids : SnmpValue → List String
  | .oid name => [name]
  | _ => []

/-- The contents of an encoded identifier are short enough for the parser. -/
def ShortOid (oid : String) : Prop :=
  ∀ body, encodeBerOid oid = .ok (encodeTlv berTagOid body) → body.length ≤ snmpMaxOidBytes

theorem shortOid_of_encode {oid : String} {n : ℕ}
    (h : ∃ bytes, encodeBerOid oid = .ok bytes ∧ bytes.length = n) (hn : n ≤ snmpMaxOidBytes) :
    ShortOid oid := by
  intro body hbody
  obtain ⟨bytes, henc, hlen⟩ := h
  rw [henc] at hbody
  cases hbody
  have := length_le_encodeTlv berTagOid body
  omega

/-- An emitted identifier is short and reads back. -/
theorem oid_of_encode {oid : String} {bytes : List UInt8} (hcan : CanonicalOid oid)
    (hshort : ShortOid oid) (h : encodeBerOid oid = .ok bytes) :
    ∃ body, bytes = encodeTlv berTagOid body ∧ body.length ≤ snmpMaxOidBytes ∧
      decodeBerOid body = .ok oid := by
  obtain ⟨body, rfl, hdec⟩ := decodeBerOid_encode hcan h
  exact ⟨body, rfl, hshort body h, hdec⟩

/-- An emitted value is one value with its tag, and reads back. -/
theorem value_of_encode {v : SnmpValue} {bytes : List UInt8} (h : encodeValue v = .ok bytes)
    (hcan : ∀ oid ∈ v.oids, CanonicalOid oid ∧ ShortOid oid) :
    ∃ tag body, bytes = encodeTlv tag body ∧ decodeValue tag body = .ok v := by
  cases v with
  | oid oid =>
    obtain ⟨hoid, hshort⟩ := hcan oid (by simp [SnmpValue.oids])
    obtain ⟨body, rfl, hlen, hdec⟩ := oid_of_encode hoid hshort h
    refine ⟨_, _, rfl, ?_⟩
    unfold decodeValue
    rw [if_neg (by decide), if_neg (by decide), if_pos rfl, if_neg (by omega), hdec,
      Checked.ok_bind]
  | integer val =>
    cases h
    refine ⟨_, _, rfl, ?_⟩
    unfold decodeValue
    rw [if_pos rfl, decodeBerInteger_contents, Checked.ok_bind]
  | counter32 val =>
    cases h
    refine ⟨_, _, rfl, ?_⟩
    simp [decodeValue, decodeBerUnsigned32_contents, snmpTagCounter32, berTagInteger,
      berTagOctetString, berTagOid, berTagNull, snmpTagIpAddress]
  | gauge32 val =>
    cases h
    refine ⟨_, _, rfl, ?_⟩
    simp [decodeValue, decodeBerUnsigned32_contents, snmpTagCounter32, berTagInteger,
      berTagOctetString, berTagOid, berTagNull, snmpTagIpAddress, snmpTagGauge32]
  | timeTicks val =>
    cases h
    refine ⟨_, _, rfl, ?_⟩
    simp [decodeValue, decodeBerUnsigned32_contents, snmpTagCounter32, berTagInteger,
      berTagOctetString, berTagOid, berTagNull, snmpTagIpAddress, snmpTagGauge32, snmpTagTimeTicks]
  | counter64 val =>
    cases h
    refine ⟨_, _, rfl, ?_⟩
    simp [decodeValue, decodeBerUnsigned_contents, snmpTagCounter32, berTagInteger,
      berTagOctetString, berTagOid, berTagNull, snmpTagIpAddress, snmpTagGauge32, snmpTagTimeTicks,
      snmpTagOpaque, snmpTagCounter64]
  | ipAddress a b c d =>
    cases h
    exact ⟨snmpTagIpAddress, [a, b, c, d], rfl, rfl⟩
  | octetString bytes | opaqueBytes bytes =>
    cases h
    exact ⟨_, _, rfl, rfl⟩
  | null =>
    cases h
    exact ⟨berTagNull, [], rfl, rfl⟩
  | noSuchObject =>
    cases h
    exact ⟨snmpExceptionNoSuchObject, [], rfl, rfl⟩
  | noSuchInstance =>
    cases h
    exact ⟨snmpExceptionNoSuchInstance, [], rfl, rfl⟩
  | endOfMibView =>
    cases h
    exact ⟨snmpExceptionEndOfMibView, [], rfl, rfl⟩

theorem emptyValue_eq_ok {body : List UInt8} {v w : SnmpValue} (h : emptyValue body v = .ok w) :
    body = [] ∧ v = w := by
  unfold emptyValue at h
  split at h <;> simp_all

/-- A value that was read is emitted again as it stood. -/
theorem encodeValue_of_decode {tag : UInt8} {body : List UInt8} {v : SnmpValue}
    (h : decodeValue tag body = .ok v) : encodeValue v = .ok (encodeTlv tag body) := by
  unfold decodeValue at h
  by_cases htag : tag = berTagInteger
  · subst htag
    obtain ⟨val, hdec, h⟩ := bind_eq_ok.mp h
    cases h
    rw [encodeValue, encodeBerInteger, integerContents_of_decode hdec]
  rw [if_neg htag] at h
  clear htag
  by_cases htag : tag = berTagOctetString
  · subst htag
    cases h
    rfl
  rw [if_neg htag] at h
  clear htag
  by_cases htag : tag = berTagOid
  · subst htag
    obtain ⟨-, h⟩ := ite_error_eq_ok.mp h
    obtain ⟨oid, hdec, h⟩ := bind_eq_ok.mp h
    cases h
    exact (encodeBerOid_of_decode hdec).2
  rw [if_neg htag] at h
  clear htag
  by_cases htag : tag = berTagNull
  · subst htag
    obtain ⟨rfl, rfl⟩ := emptyValue_eq_ok h
    rfl
  rw [if_neg htag] at h
  clear htag
  by_cases htag : tag = snmpTagIpAddress
  · subst htag
    rw [if_pos rfl] at h
    split at h
    · cases h
      rfl
    · cases h
  rw [if_neg htag] at h
  clear htag
  by_cases htag : tag = snmpTagCounter32
  · subst htag
    obtain ⟨val, hdec, h⟩ := bind_eq_ok.mp h
    cases h
    rw [encodeValue, encodeBerUnsigned, unsignedContents_of_decode32 hdec]
  rw [if_neg htag] at h
  clear htag
  by_cases htag : tag = snmpTagGauge32
  · subst htag
    obtain ⟨val, hdec, h⟩ := bind_eq_ok.mp h
    cases h
    rw [encodeValue, encodeBerUnsigned, unsignedContents_of_decode32 hdec]
  rw [if_neg htag] at h
  clear htag
  by_cases htag : tag = snmpTagTimeTicks
  · subst htag
    obtain ⟨val, hdec, h⟩ := bind_eq_ok.mp h
    cases h
    rw [encodeValue, encodeBerUnsigned, unsignedContents_of_decode32 hdec]
  rw [if_neg htag] at h
  clear htag
  by_cases htag : tag = snmpTagOpaque
  · subst htag
    cases h
    rfl
  rw [if_neg htag] at h
  clear htag
  by_cases htag : tag = snmpTagCounter64
  · subst htag
    obtain ⟨val, hdec, h⟩ := bind_eq_ok.mp h
    cases h
    rw [encodeValue, encodeBerUnsigned, unsignedContents_of_decode hdec]
  rw [if_neg htag] at h
  clear htag
  by_cases htag : tag = snmpExceptionNoSuchObject
  · subst htag
    obtain ⟨rfl, rfl⟩ := emptyValue_eq_ok h
    rfl
  rw [if_neg htag] at h
  clear htag
  by_cases htag : tag = snmpExceptionNoSuchInstance
  · subst htag
    obtain ⟨rfl, rfl⟩ := emptyValue_eq_ok h
    rfl
  rw [if_neg htag] at h
  clear htag
  by_cases htag : tag = snmpExceptionEndOfMibView
  · subst htag
    obtain ⟨rfl, rfl⟩ := emptyValue_eq_ok h
    rfl
  rw [if_neg htag] at h
  clear htag
  cases h

/-! ### Variable bindings -/

section varbinds

variable {vb : SnmpVarbind} {vbs : List SnmpVarbind} {bytes body oid value : List UInt8} {read : ℕ}

/-- The identifiers of a binding: its name, and its value when that is one. -/
def SnmpVarbind.oids (vb : SnmpVarbind) : List String := vb.oid :: vb.value.oids

theorem parseVarbind_encode (hcan : ∀ o ∈ vb.oids, CanonicalOid o ∧ ShortOid o)
    (hoid : encodeBerOid vb.oid = .ok oid) (hvalue : encodeValue vb.value = .ok value)
    (hfit : (oid ++ value).length + 10 < 2 ^ 64) : parseVarbind (oid ++ value) = .ok vb := by
  obtain ⟨⟨hname, hshort⟩, hrest⟩ := List.forall_mem_cons.mp hcan
  obtain ⟨oidBody, rfl, hlen, hdec⟩ := oid_of_encode hname hshort hoid
  obtain ⟨tag, valBody, rfl, hval⟩ := value_of_encode hvalue hrest
  rw [List.length_append] at hfit
  have hoidLen := length_le_encodeTlv berTagOid oidBody
  have hvalLen := length_le_encodeTlv tag valBody
  rw [parseVarbind, expectTlv_encodeTlv (by omega), Checked.ok_bind]
  simp only
  rw [if_neg (by omega), hdec, Checked.ok_bind, decodeBerTlv_whole (by omega), Checked.ok_bind]
  simp only [ne_eq, not_true_eq_false, if_false]
  rw [hval, Checked.ok_bind]

theorem parseVarbind_eq_ok (h : parseVarbind body = .ok vb) :
    ∃ oid value, encodeBerOid vb.oid = .ok oid ∧ encodeValue vb.value = .ok value ∧
      body = oid ++ value := by
  obtain ⟨⟨oidBody, rest⟩, htlv, h⟩ := bind_eq_ok.mp h
  obtain ⟨-, h⟩ := ite_error_eq_ok.mp h
  obtain ⟨oid, hdec, h⟩ := bind_eq_ok.mp h
  obtain ⟨⟨tag, valBody, n⟩, hval, h⟩ := bind_eq_ok.mp h
  obtain ⟨hn, h⟩ := ite_error_eq_ok.mp h
  obtain ⟨value, hvalue, h⟩ := bind_eq_ok.mp h
  cases h
  refine ⟨_, _, (encodeBerOid_of_decode hdec).2, encodeValue_of_decode hvalue, ?_⟩
  have hrest : rest = encodeTlv tag valBody := eq_encodeTlv_of_decode hval (by simpa using hn)
  rw [expectTlv_eq_ok htlv, hrest]

/-- The loop reads back what was emitted for the bindings, with room left in its count. -/
theorem parseVarbinds_encode (h : encodeVarbinds vbs = .ok bytes)
    (hcan : ∀ vb ∈ vbs, ∀ o ∈ vb.oids, CanonicalOid o ∧ ShortOid o)
    (hfit : bytes.length + 10 < 2 ^ 64) (hcount : read + vbs.length ≤ snmpMaxParsedVarbinds) :
    parseVarbinds read bytes = .ok vbs := by
  induction vbs generalizing bytes read with
  | nil =>
    cases h
    rw [parseVarbinds, if_pos rfl]
  | cons vb rest ih =>
    obtain ⟨oid, hoid, h⟩ := bind_eq_ok.mp h
    obtain ⟨value, hvalue, h⟩ := bind_eq_ok.mp h
    obtain ⟨more, hmore, h⟩ := bind_eq_ok.mp h
    cases h
    obtain ⟨hvb, hrest⟩ := List.forall_mem_cons.mp hcan
    have hlen := length_le_encodeTlv berTagSequence (oid ++ value)
    rw [List.length_append] at hfit
    rw [List.length_cons] at hcount
    rw [parseVarbinds, if_neg (by simp [encodeTlv]), if_neg (by omega),
      expectTlv_encodeTlv (by omega), Checked.ok_bind,
      parseVarbind_encode hvb hoid hvalue (by omega), Checked.ok_bind,
      ih hmore hrest (by omega) (by omega), Checked.ok_bind]

/-- Bindings that were read are emitted again as they stood. -/
theorem encodeVarbinds_of_parse (h : parseVarbinds read bytes = .ok vbs) :
    encodeVarbinds vbs = .ok bytes := by
  induction vbs generalizing bytes read with
  | nil =>
    unfold parseVarbinds at h
    split at h
    · simp_all [encodeVarbinds]
    · obtain ⟨-, h⟩ := ite_error_eq_ok.mp h
      obtain ⟨_, -, h⟩ := bind_eq_ok.mp h
      obtain ⟨_, -, h⟩ := bind_eq_ok.mp h
      obtain ⟨_, -, h⟩ := bind_eq_ok.mp h
      cases h
  | cons vb rest ih =>
    unfold parseVarbinds at h
    split at h
    · cases h
    · obtain ⟨-, h⟩ := ite_error_eq_ok.mp h
      obtain ⟨⟨body, tail⟩, htlv, h⟩ := bind_eq_ok.mp h
      obtain ⟨first, hfirst, h⟩ := bind_eq_ok.mp h
      obtain ⟨others, hothers, h⟩ := bind_eq_ok.mp h
      cases h
      obtain ⟨oid, value, hoid, hvalue, rfl⟩ := parseVarbind_eq_ok hfirst
      rw [encodeVarbinds, hoid, Checked.ok_bind, hvalue, Checked.ok_bind, ih hothers,
        Checked.ok_bind, expectTlv_eq_ok htlv]

end varbinds

/-! ### Messages -/

def SnmpMessage.oids (m : SnmpMessage) : List String := m.pdu.varbinds.flatMap SnmpVarbind.oids

/-- The limits of the parser, for a message and its encoding. -/
structure WithinLimits (m : SnmpMessage) (bytes : List UInt8) : Prop where
  message : bytes.length ≤ snmpMaxMessageLen
  community : (asBytes m.community).length ≤ snmpMaxCommunityLen
  varbinds : m.pdu.varbinds.length ≤ snmpMaxParsedVarbinds
  oids : ∀ oid ∈ m.oids, ShortOid oid

/-- The contents of a PDU around its encoded variable bindings. -/
def SnmpPdu.bytes (pdu : SnmpPdu) (vbListBytes : List UInt8) : List UInt8 :=
  encodeBerInteger pdu.requestId ++ encodeBerInteger pdu.errorStatus ++
    encodeBerInteger pdu.errorIndex ++ encodeTlv berTagSequence vbListBytes

section messages

variable {m : SnmpMessage} {pdu : SnmpPdu} {bytes : List UInt8}

theorem parsePdu_encode (hcheck : pdu.check = .ok ()) (h : encodeVarbinds pdu.varbinds = .ok bytes)
    (hcan : ∀ vb ∈ pdu.varbinds, ∀ o ∈ vb.oids, CanonicalOid o ∧ ShortOid o)
    (hfit : bytes.length + 10 < 2 ^ 64) (hcount : pdu.varbinds.length ≤ snmpMaxParsedVarbinds) :
    parsePdu pdu.pduType (pdu.bytes bytes) = .ok pdu := by
  obtain ⟨-, hcheck⟩ := ite_error_eq_ok.mp hcheck
  obtain ⟨hrequest, hcheck⟩ := ite_error_eq_ok.mp hcheck
  obtain ⟨hresponse, hcheck⟩ := ite_error_eq_ok.mp hcheck
  obtain ⟨hbulk, -⟩ := ite_error_eq_ok.mp hcheck
  rw [SnmpPdu.bytes, List.append_assoc, List.append_assoc, parsePdu, expectInteger_encode,
    Checked.ok_bind, expectInteger_encode, Checked.ok_bind, expectInteger_encode, Checked.ok_bind,
    if_neg hrequest, decodeBerTlv_whole hfit, Checked.ok_bind]
  simp only [ne_eq, not_true_eq_false, or_self, if_false]
  rw [parseVarbinds_encode h hcan hfit (by omega), Checked.ok_bind, if_neg hresponse, if_neg hbulk]

theorem parsePdu_eq_ok {tag : UInt8} {body : List UInt8} (htag : isSupportedPduType tag = true)
    (h : parsePdu tag body = .ok pdu) :
    pdu.pduType = tag ∧ pdu.check = .ok () ∧
      ∃ vbListBytes, encodeVarbinds pdu.varbinds = .ok vbListBytes ∧
      body = pdu.bytes vbListBytes := by
  obtain ⟨⟨request, r1⟩, hreq, h⟩ := bind_eq_ok.mp h
  obtain ⟨⟨status, r2⟩, hstatus, h⟩ := bind_eq_ok.mp h
  obtain ⟨⟨idx, r3⟩, hidx, h⟩ := bind_eq_ok.mp h
  obtain ⟨hrequest, h⟩ := ite_error_eq_ok.mp h
  obtain ⟨⟨listTag, listBody, n⟩, hlist, h⟩ := bind_eq_ok.mp h
  obtain ⟨hwhole, h⟩ := ite_error_eq_ok.mp h
  obtain ⟨varbinds, hvbs, h⟩ := bind_eq_ok.mp h
  obtain ⟨hresponse, h⟩ := ite_error_eq_ok.mp h
  obtain ⟨hbulk, h⟩ := ite_error_eq_ok.mp h
  cases h
  obtain ⟨rfl, hn⟩ : listTag = berTagSequence ∧ n = r3.length := by simpa using hwhole
  refine ⟨rfl, ?_, listBody, encodeVarbinds_of_parse hvbs, ?_⟩
  · rw [SnmpPdu.check, if_neg (by simp [htag]), if_neg hrequest, if_neg hresponse, if_neg hbulk]
  · rw [SnmpPdu.bytes, List.append_assoc, List.append_assoc, ← eq_encodeTlv_of_decode hlist hn,
      ← expectInteger_eq_ok hidx, ← expectInteger_eq_ok hstatus, ← expectInteger_eq_ok hreq]

theorem frame_eq (m : SnmpMessage) (vbListBytes : List UInt8) :
    m.frame vbListBytes = encodeTlv berTagSequence (encodeBerInteger m.version ++
      (encodeTlv berTagOctetString (asBytes m.community) ++
        encodeTlv m.pdu.pduType (m.pdu.bytes vbListBytes))) := by
  rw [← List.append_assoc]
  rfl

/-- What is emitted within the limits of the parser reads back. -/
theorem parse_trySerialize (h : m.trySerialize = .ok bytes)
    (hcan : ∀ oid ∈ m.oids, CanonicalOid oid) (hlimits : WithinLimits m bytes) :
    SnmpMessage.parse bytes = .ok m := by
  obtain ⟨hversion, h⟩ := ite_error_eq_ok.mp h
  obtain ⟨⟨⟩, hcheck, h⟩ := bind_eq_ok.mp h
  obtain ⟨vbs, hvbs, h⟩ := bind_eq_ok.mp h
  cases h
  obtain ⟨hmessage, hcommunity, hcount, hshort⟩ := hlimits
  have hoids : ∀ vb ∈ m.pdu.varbinds, ∀ o ∈ vb.oids, CanonicalOid o ∧ ShortOid o := by
    intro vb hvb o ho
    have hmem : o ∈ m.oids := List.mem_flatMap.mpr ⟨vb, hvb, ho⟩
    exact ⟨hcan o hmem, hshort o hmem⟩
  have hsupported : isSupportedPduType m.pdu.pduType = true := by
    obtain ⟨hsup, -⟩ := ite_error_eq_ok.mp hcheck
    simpa using hsup
  have hmax : snmpMaxMessageLen = 4096 := rfl
  rw [frame_eq] at hmessage ⊢
  have hroot := length_le_encodeTlv berTagSequence (encodeBerInteger m.version ++
    (encodeTlv berTagOctetString (asBytes m.community) ++
      encodeTlv m.pdu.pduType (m.pdu.bytes vbs)))
  have hname := length_le_encodeTlv berTagOctetString (asBytes m.community)
  have hpdu := length_le_encodeTlv m.pdu.pduType (m.pdu.bytes vbs)
  have hlist := length_le_encodeTlv berTagSequence vbs
  have hinner : vbs.length ≤ (m.pdu.bytes vbs).length := by
    simp only [SnmpPdu.bytes, List.length_append]
    omega
  have hparts : (encodeTlv berTagOctetString (asBytes m.community)).length +
      (encodeTlv m.pdu.pduType (m.pdu.bytes vbs)).length ≤ 4096 := by
    rw [List.length_append, List.length_append] at hroot
    omega
  have hfront : parseFront (encodeTlv berTagSequence (encodeBerInteger m.version ++
      (encodeTlv berTagOctetString (asBytes m.community) ++
        encodeTlv m.pdu.pduType (m.pdu.bytes vbs)))) =
      .ok (m.version, asBytes m.community, encodeTlv m.pdu.pduType (m.pdu.bytes vbs)) := by
    rw [parseFront, if_neg (by omega), decodeBerTlv_whole (by omega), Checked.ok_bind]
    simp only [ne_eq, not_true_eq_false, or_self, if_false]
    rw [expectInteger_encode, Checked.ok_bind]
    simp only
    rw [if_neg hversion, expectTlv_encodeTlv (by omega), Checked.ok_bind]
    simp only
    rw [if_neg (by omega)]
  rw [SnmpMessage.parse, hfront, Checked.ok_bind]
  simp only
  rw [decodeBerTlv_whole (by omega), Checked.ok_bind]
  simp only [ne_eq, not_true_eq_false, if_false, hsupported, Bool.not_true, Bool.false_eq_true]
  rw [parsePdu_encode hcheck hvbs hoids (by omega) hcount, Checked.ok_bind,
    Utf8.fromUtf8Lossy_of_valid (Utf8.fromUtf8_asBytes _)]

/-- What was read with a community in UTF-8 is emitted again as it stood. -/
theorem trySerialize_of_parse {front : BitVec 32 × List UInt8 × List UInt8} {community : String}
    (h : SnmpMessage.parse bytes = .ok m) (hfront : parseFront bytes = .ok front)
    (hutf8 : fromUtf8 front.2.1 = some community) : m.trySerialize = .ok bytes := by
  rw [SnmpMessage.parse, hfront, Checked.ok_bind] at h
  obtain ⟨⟨tag, body, n⟩, hpdu, h⟩ := bind_eq_ok.mp h
  obtain ⟨hwhole, h⟩ := ite_error_eq_ok.mp h
  obtain ⟨htag, h⟩ := ite_error_eq_ok.mp h
  obtain ⟨pdu, hparse, h⟩ := bind_eq_ok.mp h
  cases h
  obtain ⟨rfl, hcheck, vbs, hvbs, rfl⟩ := parsePdu_eq_ok (by simpa using htag) hparse
  obtain ⟨-, hfront⟩ := ite_error_eq_ok.mp hfront
  obtain ⟨⟨rootTag, rootBody, rootLen⟩, hroot, hfront⟩ := bind_eq_ok.mp hfront
  obtain ⟨hrootWhole, hfront⟩ := ite_error_eq_ok.mp hfront
  obtain ⟨⟨version, rest⟩, hver, hfront⟩ := bind_eq_ok.mp hfront
  obtain ⟨hversion, hfront⟩ := ite_error_eq_ok.mp hfront
  obtain ⟨⟨name, tail⟩, hname, hfront⟩ := bind_eq_ok.mp hfront
  obtain ⟨-, hfront⟩ := ite_error_eq_ok.mp hfront
  cases hfront
  obtain ⟨rfl, hlen⟩ : rootTag = berTagSequence ∧ rootLen = bytes.length := by
    simpa using hrootWhole
  have hbytes := eq_encodeTlv_of_decode hroot hlen
  have htail : tail = encodeTlv pdu.pduType (pdu.bytes vbs) :=
    eq_encodeTlv_of_decode hpdu (by simpa using hwhole)
  rw [show rootBody = _ from expectInteger_eq_ok hver, show rest = _ from expectTlv_eq_ok hname,
    htail] at hbytes
  rw [SnmpMessage.trySerialize, if_neg hversion]
  simp only [hcheck, hvbs, Checked.ok_bind]
  rw [frame_eq, hbytes]
  simp only [Utf8.fromUtf8Lossy_of_valid hutf8, Utf8.asBytes_of_fromUtf8 hutf8]

end messages

/-- Parsing and serializing undo each other: what is emitted from canonical identifiers within the
limits of the parser is read back, and what is read with a community in UTF-8 is emitted as it
stood. -/
theorem snmp_codec :
    (∀ m bytes, SnmpMessage.trySerialize m = .ok bytes → (∀ oid ∈ m.oids, CanonicalOid oid) →
      WithinLimits m bytes → SnmpMessage.parse bytes = .ok m) ∧
    (∀ m bytes front community, SnmpMessage.parse bytes = .ok m → parseFront bytes = .ok front →
      fromUtf8 front.2.1 = some community → m.trySerialize = .ok bytes) :=
  ⟨fun _ _ h hcan hlimits => parse_trySerialize h hcan hlimits,
    fun _ _ _ _ h hfront hutf8 => trySerialize_of_parse h hfront hutf8⟩

/-- A response with an object identifier, a negative number and a large counter. -/
def sysObjectResponse : SnmpMessage where
  version := snmpVersion2c
  community := "public"
  pdu :=
    { pduType := snmpPduResponse
      requestId := -129
      errorStatus := 0
      errorIndex := 0
      varbinds := [⟨dotted [1, 3, 6, 1, 2, 1, 1, 2, 0], .oid (dotted [2, 999, 128])⟩,
        ⟨dotted [1, 3, 6, 1], .counter64 0x8000000000000000⟩] }

def sysObjectBytes : List UInt8 :=
  [48, 61, 2, 1, 1, 4, 6, 112, 117, 98, 108, 105, 99, 162, 48, 2, 2, 255, 127, 2, 1, 0, 2, 1, 0, 48,
    36, 48, 16, 6, 8, 43, 6, 1, 2, 1, 1, 2, 0, 6, 4, 136, 55, 129, 0, 48, 16, 6, 3, 43, 6, 1, 70, 9,
    0, 128, 0, 0, 0, 0, 0, 0, 0]

example : encodeBerOid "1.3.6.1" = .ok [6, 3, 43, 6, 1] := by decide +kernel

theorem snmp_codec_sysObject :
    SnmpMessage.trySerialize sysObjectResponse = .ok sysObjectBytes ∧
      SnmpMessage.parse sysObjectBytes = .ok sysObjectResponse := by
  have hser : SnmpMessage.trySerialize sysObjectResponse = .ok sysObjectBytes := by decide +kernel
  have hoids : sysObjectResponse.oids =
      [dotted [1, 3, 6, 1, 2, 1, 1, 2, 0], dotted [2, 999, 128], dotted [1, 3, 6, 1]] := rfl
  have hparse := snmp_codec.1 sysObjectResponse sysObjectBytes hser
    (by
      rw [hoids]
      simp only [List.forall_mem_cons]
      exact ⟨⟨_, rfl⟩, ⟨_, rfl⟩, ⟨_, rfl⟩, by simp⟩)
    { message := by decide
      community := by decide +kernel
      varbinds := by decide
      oids := by
        rw [hoids]
        simp only [List.forall_mem_cons]
        exact ⟨shortOid_of_encode ⟨[6, 8, 43, 6, 1, 2, 1, 1, 2, 0], by decide +kernel,
          rfl⟩ (by decide), shortOid_of_encode ⟨[6, 4, 136, 55, 129, 0], by decide +kernel,
          rfl⟩ (by decide),
          shortOid_of_encode ⟨[6, 3, 43, 6, 1], by decide +kernel, rfl⟩ (by decide), by simp⟩ }
  have hfront : ∃ front, parseFront sysObjectBytes = .ok front ∧
      fromUtf8 front.2.1 = some "public" :=
    ⟨(snmpVersion2c, asBytes "public", sysObjectBytes.drop 13), by decide +kernel, by simp⟩
  obtain ⟨front, hfront, hutf8⟩ := hfront
  exact ⟨snmp_codec.2 _ _ front "public" hparse hfront hutf8, hparse⟩

end ToyTcpip.Snmp
