import ToyTcpip.Lib.Utf8
import ToyTcpip.Snmp.Oid

/-! SNMP messages: the parser and the serializer of `snmp.rs`. -/
namespace ToyTcpip.Snmp

open Checked (index slice)
open Utf8 (asBytes fromUtf8Lossy)

def snmpVersion2c : BitVec 32 := 1

def snmpMaxMessageLen : ℕ := 4096

def snmpMaxCommunityLen : ℕ := 64

def snmpMaxParsedVarbinds : ℕ := 128

def snmpMaxOidBytes : ℕ := 128

def berTagOctetString : UInt8 := 0x04

def berTagNull : UInt8 := 0x05

def berTagSequence : UInt8 := 0x30

def snmpTagIpAddress : UInt8 := 0x40

def snmpTagCounter32 : UInt8 := 0x41

def snmpTagGauge32 : UInt8 := 0x42

def snmpTagTimeTicks : UInt8 := 0x43

def snmpTagOpaque : UInt8 := 0x44

def snmpTagCounter64 : UInt8 := 0x46

def snmpExceptionNoSuchObject : UInt8 := 0x80

def snmpExceptionNoSuchInstance : UInt8 := 0x81

def snmpExceptionEndOfMibView : UInt8 := 0x82

def snmpPduGetRequest : UInt8 := 0xA0

def snmpPduGetNextRequest : UInt8 := 0xA1

def snmpPduResponse : UInt8 := 0xA2

def snmpPduSetRequest : UInt8 := 0xA3

def snmpPduGetBulkRequest : UInt8 := 0xA5

def isSupportedPduType (tag : UInt8) : Bool :=
  tag ∈ [snmpPduGetRequest, snmpPduGetNextRequest, snmpPduResponse, snmpPduSetRequest,
    snmpPduGetBulkRequest]

def isRequestPduType (tag : UInt8) : Bool :=
  tag ∈ [snmpPduGetRequest, snmpPduGetNextRequest, snmpPduSetRequest]

def responseErrorFieldsAreValid (errorStatus errorIndex : BitVec 32) (varbindCount : ℕ) : Bool :=
  if ¬ (0 ≤ errorStatus.toInt ∧ errorStatus.toInt ≤ 18) ∨ errorIndex.toInt < 0 then false
  else if errorStatus = 0 then errorIndex = 0
  else errorIndex = 0 ∨ errorIndex.toInt ≤ varbindCount

/-- Values; `i32` numbers are their 32 bits. -/
inductive SnmpValue where
  | integer (val : BitVec 32)
  | octetString (bytes : List UInt8)
  | null
  | oid (oid : String)
  | ipAddress (a b c d : UInt8)
  | counter32 (val : BitVec 32)
  | gauge32 (val : BitVec 32)
  | timeTicks (val : BitVec 32)
  | opaqueBytes (bytes : List UInt8)
  | counter64 (val : BitVec 64)
  | noSuchObject
  | noSuchInstance
  | endOfMibView
  deriving DecidableEq, Repr

structure SnmpVarbind where
  oid : String
  value : SnmpValue
  deriving DecidableEq, Repr

structure SnmpPdu where
  pduType : UInt8
  requestId : BitVec 32
  errorStatus : BitVec 32
  errorIndex : BitVec 32
  varbinds : List SnmpVarbind
  deriving DecidableEq, Repr

structure SnmpMessage where
  version : BitVec 32
  community : String
  pdu : SnmpPdu
  deriving DecidableEq, Repr

/-! ### The parser -/

/-- `u32::try_from(decode_ber_unsigned(..)?)`. -/
def decodeBerUnsigned32 (bytes : List UInt8) : Parsed (BitVec 32) :=
  (decodeBerUnsigned bytes).bind fun val =>
    if val.toNat ≥ 2 ^ 32 then .error .invalidBerEncoding else .ok (BitVec.ofNat 32 val.toNat)

/-- A value that must be empty. -/
def emptyValue (body : List UInt8) (val : SnmpValue) : Parsed SnmpValue :=
  if body = [] then .ok val else .error .invalidBerEncoding

def decodeValue (tag : UInt8) (body : List UInt8) : Parsed SnmpValue :=
  if tag = berTagInteger then (decodeBerInteger body).bind fun val => .ok (.integer val)
  else if tag = berTagOctetString then .ok (.octetString body)
  else if tag = berTagOid then
    if body.length > snmpMaxOidBytes then .error (.resourceLimitExceeded "OID value length")
    else (decodeBerOid body).bind fun oid => .ok (.oid oid)
  else if tag = berTagNull then emptyValue body .null
  else if tag = snmpTagIpAddress then
    match body with
    | [a, b, c, d] => .ok (.ipAddress a b c d)
    | _ => .error .invalidBerEncoding
  else if tag = snmpTagCounter32 then (decodeBerUnsigned32 body).bind fun val =>
    .ok (.counter32 val)
  else if tag = snmpTagGauge32 then (decodeBerUnsigned32 body).bind fun val => .ok (.gauge32 val)
  else if tag = snmpTagTimeTicks then (decodeBerUnsigned32 body).bind fun val =>
    .ok (.timeTicks val)
  else if tag = snmpTagOpaque then .ok (.opaqueBytes body)
  else if tag = snmpTagCounter64 then (decodeBerUnsigned body).bind fun val => .ok (.counter64 val)
  else if tag = snmpExceptionNoSuchObject then emptyValue body .noSuchObject
  else if tag = snmpExceptionNoSuchInstance then emptyValue body .noSuchInstance
  else if tag = snmpExceptionEndOfMibView then emptyValue body .endOfMibView
  else .error (.unsupportedTag tag)

/-- The value with the wanted tag in front of `data`, and what follows it. -/
def expectTlv (tag : UInt8) (data : List UInt8) : Parsed (List UInt8 × List UInt8) :=
  (decodeBerTlv data).bind fun found =>
    if found.1 ≠ tag then .error .invalidBerEncoding
    else (slice data found.2.2 data.length).bind fun rest => .ok (found.2.1, rest)

def expectInteger (data : List UInt8) : Parsed (BitVec 32 × List UInt8) :=
  (expectTlv berTagInteger data).bind fun found =>
    (decodeBerInteger found.1).bind fun val => .ok (val, found.2)

/-- The variable binding in the body of its sequence. -/
def parseVarbind (vbBody : List UInt8) : Parsed SnmpVarbind :=
  (expectTlv berTagOid vbBody).bind fun found =>
    if found.1.length > snmpMaxOidBytes then .error (.resourceLimitExceeded "OID length")
    else
      (decodeBerOid found.1).bind fun oid =>
        (decodeBerTlv found.2).bind fun val =>
          if val.2.2 ≠ found.2.length then .error .invalidBerEncoding
          else (decodeValue val.1 val.2.1).bind fun value => .ok ⟨oid, value⟩

/-- The loop over the variable bindings, with the number of those already read. -/
def parseVarbinds (read : ℕ) (vbListBody : List UInt8) : Parsed (List SnmpVarbind) :=
  if vbListBody = [] then .ok []
  else if read ≥ snmpMaxParsedVarbinds then .error (.resourceLimitExceeded "varbind count")
  else
    (expectTlv berTagSequence vbListBody).bind fun found =>
      (parseVarbind found.1).bind fun varbind =>
        (parseVarbinds (read + 1) found.2).bind fun rest => .ok (varbind :: rest)
termination_by snmpMaxParsedVarbinds - read

/-- The PDU in the body of the value with its tag. -/
def parsePdu (pduTag : UInt8) (pduBody : List UInt8) : Parsed SnmpPdu :=
  (expectInteger pduBody).bind fun request =>
    (expectInteger request.2).bind fun status =>
      (expectInteger status.2).bind fun idx =>
        if isRequestPduType pduTag ∧ (status.1 ≠ 0 ∨ idx.1 ≠ 0) then .error .invalidBerEncoding
        else
          (decodeBerTlv idx.2).bind fun list =>
            if list.1 ≠ berTagSequence ∨ list.2.2 ≠ idx.2.length then .error .invalidBerEncoding
            else
              (parseVarbinds 0 list.2.1).bind fun varbinds =>
                if pduTag = snmpPduResponse ∧
                    !responseErrorFieldsAreValid status.1 idx.1 varbinds.length then
                  .error .invalidBerEncoding
                else if pduTag = snmpPduGetBulkRequest ∧
                    (status.1.toInt < 0 ∨ idx.1.toInt < 0) then .error .invalidBerEncoding
                else .ok ⟨pduTag, request.1, status.1, idx.1, varbinds⟩

/-- Version, the bytes of the community and what follows it. -/
def parseFront (data : List UInt8) : Parsed (BitVec 32 × List UInt8 × List UInt8) :=
  if data.length > snmpMaxMessageLen then .error (.resourceLimitExceeded "message length")
  else
    (decodeBerTlv data).bind fun root =>
      if root.1 ≠ berTagSequence ∨ root.2.2 ≠ data.length then .error .invalidBerEncoding
      else
        (expectInteger root.2.1).bind fun version =>
          if version.1 ≠ snmpVersion2c then .error .invalidBerEncoding
          else
            (expectTlv berTagOctetString version.2).bind fun community =>
              if community.1.length > snmpMaxCommunityLen then
                .error (.resourceLimitExceeded "community length")
              else .ok (version.1, community.1, community.2)

namespace SnmpMessage

def parse (data : List UInt8) : Parsed SnmpMessage :=
  (parseFront data).bind fun front =>
    (decodeBerTlv front.2.2).bind fun pdu =>
      if pdu.2.2 ≠ front.2.2.length then .error .invalidBerEncoding
      else if !isSupportedPduType pdu.1 then .error (.unsupportedTag pdu.1)
      else (parsePdu pdu.1 pdu.2.1).bind fun body => .ok ⟨front.1, fromUtf8Lossy front.2.1, body⟩

end SnmpMessage

/-! ### The serializer -/

def encodeValue : SnmpValue → Parsed (List UInt8)
  | .integer val => .ok (encodeBerInteger val)
  | .octetString bytes => .ok (encodeTlv berTagOctetString bytes)
  | .null => .ok [berTagNull, 0]
  | .oid oid => encodeBerOid oid
  | .ipAddress a b c d => .ok [snmpTagIpAddress, 4, a, b, c, d]
  | .counter32 val => .ok (encodeBerUnsigned snmpTagCounter32 (val.setWidth 64))
  | .gauge32 val => .ok (encodeBerUnsigned snmpTagGauge32 (val.setWidth 64))
  | .timeTicks val => .ok (encodeBerUnsigned snmpTagTimeTicks (val.setWidth 64))
  | .opaqueBytes bytes => .ok (encodeTlv snmpTagOpaque bytes)
  | .counter64 val => .ok (encodeBerUnsigned snmpTagCounter64 val)
  | .noSuchObject => .ok [snmpExceptionNoSuchObject, 0]
  | .noSuchInstance => .ok [snmpExceptionNoSuchInstance, 0]
  | .endOfMibView => .ok [snmpExceptionEndOfMibView, 0]

def encodeVarbinds : List SnmpVarbind → Parsed (List UInt8)
  | [] => .ok []
  | vb :: rest =>
    (encodeBerOid vb.oid).bind fun oid =>
      (encodeValue vb.value).bind fun value =>
        (encodeVarbinds rest).bind fun more => .ok (encodeTlv berTagSequence (oid ++ value) ++ more)

/-- The checks of `try_serialize` on the PDU. -/
def SnmpPdu.check (pdu : SnmpPdu) : Parsed Unit :=
  if !isSupportedPduType pdu.pduType then .error (.unsupportedTag pdu.pduType)
  else if isRequestPduType pdu.pduType ∧ (pdu.errorStatus ≠ 0 ∨ pdu.errorIndex ≠ 0) then
    .error .invalidBerEncoding
  else if pdu.pduType = snmpPduResponse ∧
      !responseErrorFieldsAreValid pdu.errorStatus pdu.errorIndex pdu.varbinds.length then
    .error .invalidBerEncoding
  else if pdu.pduType = snmpPduGetBulkRequest ∧
      (pdu.errorStatus.toInt < 0 ∨ pdu.errorIndex.toInt < 0) then .error .invalidBerEncoding
  else .ok ()

/-- The bytes of a message around its encoded variable bindings. -/
def SnmpMessage.frame (m : SnmpMessage) (vbListBytes : List UInt8) : List UInt8 :=
  let pduBytes := encodeBerInteger m.pdu.requestId ++ encodeBerInteger m.pdu.errorStatus ++
    encodeBerInteger m.pdu.errorIndex ++ encodeTlv berTagSequence vbListBytes
  encodeTlv berTagSequence (encodeBerInteger m.version ++
    encodeTlv berTagOctetString (asBytes m.community) ++ encodeTlv m.pdu.pduType pduBytes)

def SnmpMessage.trySerialize (m : SnmpMessage) : Parsed (List UInt8) :=
  if m.version ≠ snmpVersion2c then .error .invalidBerEncoding
  else
    m.pdu.check.bind fun _ =>
      (encodeVarbinds m.pdu.varbinds).bind fun vbListBytes => .ok (m.frame vbListBytes)

end ToyTcpip.Snmp
