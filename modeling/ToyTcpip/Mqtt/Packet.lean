import ToyTcpip.Bytes
import ToyTcpip.Lib.Utf8

/-! MQTT packets: the encoder, the decoder and the checks they share, of `mqtt.rs`. -/
namespace ToyTcpip.Mqtt

open Checked (index slice)
open Utf8 (fromUtf8)

def mqttMaxRemainingLength : ℕ := 268435455

inductive MqttPacketType where
  | connect
  | connack
  | publish
  | puback
  | subscribe
  | suback
  | unsubscribe
  | unsuback
  | pingreq
  | pingresp
  | disconnect
  deriving DecidableEq, Repr

namespace MqttPacketType

def fromU8 (val : UInt8) : Option MqttPacketType :=
  match val with
  | 1 => some .connect
  | 2 => some .connack
  | 3 => some .publish
  | 4 => some .puback
  | 8 => some .subscribe
  | 9 => some .suback
  | 10 => some .unsubscribe
  | 11 => some .unsuback
  | 12 => some .pingreq
  | 13 => some .pingresp
  | 14 => some .disconnect
  | _ => none

/-- `packet_type as u8`. -/
def toU8 : MqttPacketType → UInt8
  | .connect => 1
  | .connack => 2
  | .publish => 3
  | .puback => 4
  | .subscribe => 8
  | .suback => 9
  | .unsubscribe => 10
  | .unsuback => 11
  | .pingreq => 12
  | .pingresp => 13
  | .disconnect => 14

end MqttPacketType

structure MqttPacket where
  packetType : MqttPacketType
  flags : UInt8
  topic : Option String
  packetId : Option (BitVec 16)
  payload : List UInt8
  deriving DecidableEq, Repr

inductive MqttError where
  | packetTooShort
  | invalidPacketType (val : UInt8)
  | invalidRemainingLength
  | malformedUtf8String
  | invalidQos (qos : UInt8)
  | invalidPacketIdentifier (id : BitVec 16)
  | invalidFixedHeaderFlags (packetType : MqttPacketType) (flags : UInt8)
  | invalidPayloadLength (packetType : MqttPacketType) (length expected : ℕ)
  | invalidConnackAcknowledgeFlags (flags : UInt8)
  | invalidConnackReturnCode (code : UInt8)
  | invalidConnackSessionPresent (returnCode : UInt8)
  | invalidSubackPayloadLength (length : ℕ)
  | invalidSubackReturnCode (code : UInt8)
  | invalidUnsubscribePayloadLength (length : ℕ)
  | invalidUnsubscribeTopicFilter
  | invalidConnectPayloadLength (length : ℕ)
  | invalidConnectProtocolName
  | invalidConnectProtocolLevel (level : UInt8)
  | invalidConnectFlags (flags : UInt8)
  | invalidConnectClientId
  deriving DecidableEq, Repr

inductive MqttSerializeError where
  | remainingLengthTooLarge (length max : ℕ)
  | invalidQos (qos : UInt8)
  | invalidPacketIdentifier (id : BitVec 16)
  | invalidFixedHeaderFlags (packetType : MqttPacketType) (flags : UInt8)
  | invalidPayloadLength (packetType : MqttPacketType) (length expected : ℕ)
  | invalidConnackAcknowledgeFlags (flags : UInt8)
  | invalidConnackReturnCode (code : UInt8)
  | invalidConnackSessionPresent (returnCode : UInt8)
  | invalidSubackPayloadLength (length : ℕ)
  | invalidSubackReturnCode (code : UInt8)
  | invalidUnsubscribePayloadLength (length : ℕ)
  | invalidUnsubscribeTopicFilter
  | invalidConnectPayloadLength (length : ℕ)
  | invalidConnectProtocolName
  | invalidConnectProtocolLevel (level : UInt8)
  | invalidConnectFlags (flags : UInt8)
  | invalidConnectClientId
  deriving DecidableEq, Repr

/-! ### Checks both directions share -/

def fixedHeaderFlagsAreValid (packetType : MqttPacketType) (flags : UInt8) : Bool :=
  if flags > 0x0f then false
  else
    match packetType with
    | .publish => true
    | .subscribe | .unsubscribe => flags = 0x02
    | _ => flags = 0

def fixedPayloadLength : MqttPacketType → Option ℕ
  | .connack | .puback | .unsuback => some 2
  | .pingreq | .pingresp | .disconnect => some 0
  | _ => none

inductive ConnackSemanticError where
  | invalidAcknowledgeFlags (flags : UInt8)
  | invalidReturnCode (code : UInt8)
  | sessionPresentWithError (returnCode : UInt8)
  deriving DecidableEq, Repr

def validateConnackSemantics (payload : List UInt8) : Checked ConnackSemanticError Unit := do
  let acknowledgeFlags ← index payload 0
  let returnCode ← index payload 1
  if acknowledgeFlags &&& 0xfe ≠ 0 then .error (.invalidAcknowledgeFlags acknowledgeFlags)
  else if returnCode > 5 then .error (.invalidReturnCode returnCode)
  else if returnCode ≠ 0 ∧ acknowledgeFlags &&& 0x01 ≠ 0 then
    .error (.sessionPresentWithError returnCode)
  else .ok ()

inductive SubackSemanticError where
  | payloadTooShort (length : ℕ)
  | invalidPacketIdentifier (id : BitVec 16)
  | invalidReturnCode (code : UInt8)
  deriving DecidableEq, Repr

def validateSubackCodes : List UInt8 → Checked SubackSemanticError Unit
  | [] => .ok ()
  | code :: rest =>
    if code ∈ [0x00, 0x01, 0x02, 0x80] then validateSubackCodes rest
    else .error (.invalidReturnCode code)

def validateSubackSemantics (payload : List UInt8) : Checked SubackSemanticError (BitVec 16) :=
  if payload.length < 3 then .error (.payloadTooShort payload.length)
  else
    (read16 payload 0).bind fun packetId =>
      if packetId = 0 then .error (.invalidPacketIdentifier packetId)
      else
        (slice payload 2 payload.length).bind fun codes =>
          (validateSubackCodes codes).bind fun _ => .ok packetId

inductive UnsubscribeSemanticError where
  | payloadTooShort (length : ℕ)
  | invalidPacketIdentifier (id : BitVec 16)
  | invalidTopicFilter
  | malformedUtf8
  deriving DecidableEq, Repr

/-- `str::from_utf8(..).map_err(..)`. -/
def decodeUtf8 {ε : Type} (e : ε) (bytes : List UInt8) : Checked ε String :=
  match fromUtf8 bytes with
  | some s => .ok s
  | none => .error e

/-- The loop over the topic filters from `cursor` on. -/
def unsubscribeTopics (payload : List UInt8) (cursor : ℕ) (firstTopic : Option String) :
    Checked UnsubscribeSemanticError (Option String) :=
  if cursor < payload.length then
    if payload.length - cursor < 2 then .error (.payloadTooShort payload.length)
    else
      (read16 payload cursor).bind fun topicLen =>
        if topicLen = 0 then .error .invalidTopicFilter
        else
          let topicStart := cursor + 2
          let topicEnd := topicStart + topicLen.toNat
          if topicEnd > payload.length then .error (.payloadTooShort payload.length)
          else
            (slice payload topicStart topicEnd).bind fun bytes =>
              (decodeUtf8 .malformedUtf8 bytes).bind fun topic =>
                unsubscribeTopics payload topicEnd (firstTopic.or (some topic))
  else .ok firstTopic
termination_by payload.length - cursor

def validateUnsubscribeSemantics (payload : List UInt8) :
    Checked UnsubscribeSemanticError (BitVec 16 × String) :=
  if payload.length < 2 then .error (.payloadTooShort payload.length)
  else
    (read16 payload 0).bind fun packetId =>
      if packetId = 0 then .error (.invalidPacketIdentifier packetId)
      else
        (unsubscribeTopics payload 2 none).bind fun firstTopic =>
          match firstTopic with
          | some topic => .ok (packetId, topic)
          | none => .error (.payloadTooShort payload.length)

inductive ConnectSemanticError where
  | payloadTooShort (length : ℕ)
  | invalidProtocolName
  | invalidProtocolLevel (level : UInt8)
  | invalidFlags (flags : UInt8)
  | invalidClientId
  | malformedUtf8
  deriving DecidableEq, Repr

def validateConnectVariableHeader (payload : List UInt8) : Checked ConnectSemanticError Unit :=
  if payload.length < 10 then .error (.payloadTooShort payload.length)
  else
    (slice payload 0 6).bind fun name =>
      if name ≠ [0x00, 0x04, 0x4D, 0x51, 0x54, 0x54] then .error .invalidProtocolName
      else
        (index payload 6).bind fun protocolLevel =>
          if protocolLevel ≠ 4 then .error (.invalidProtocolLevel protocolLevel)
          else
            (index payload 7).bind fun connectFlags =>
              let willFlag : Bool := connectFlags &&& 0x04 ≠ 0
              let willQos := (connectFlags >>> 3) &&& 0x03
              let willRetain : Bool := connectFlags &&& 0x20 ≠ 0
              let usernameFlag : Bool := connectFlags &&& 0x80 ≠ 0
              let passwordFlag : Bool := connectFlags &&& 0x40 ≠ 0
              if connectFlags &&& 0x01 ≠ 0 ∨ (!willFlag ∧ (willQos ≠ 0 ∨ willRetain)) ∨
                  (willFlag ∧ willQos = 3) ∨ (passwordFlag ∧ !usernameFlag) then
                .error (.invalidFlags connectFlags)
              else .ok ()

/-- The field at `cursor` and the cursor after it. -/
def consumeConnectField (payload : List UInt8) (cursor : ℕ) :
    Checked ConnectSemanticError (List UInt8 × ℕ) :=
  if payload.length - cursor < 2 then .error (.payloadTooShort payload.length)
  else
    (read16 payload cursor).bind fun fieldLen =>
      let fieldStart := cursor + 2
      let fieldEnd := fieldStart + fieldLen.toNat
      if fieldEnd > payload.length then .error (.payloadTooShort payload.length)
      else (slice payload fieldStart fieldEnd).bind fun field => .ok (field, fieldEnd)

def validateConnectSemantics (payload : List UInt8) : Checked ConnectSemanticError Unit := do
  validateConnectVariableHeader payload
  let connectFlags ← index payload 7
  let (clientId, cursor) ← consumeConnectField payload 10
  let _ ← decodeUtf8 .malformedUtf8 clientId
  let cleanSession : Bool := connectFlags &&& 0x02 ≠ 0
  if clientId = [] ∧ !cleanSession then .error .invalidClientId
  else do
    let cursor ← if connectFlags &&& 0x04 ≠ 0 then do
        let (_, cursor) ← consumeConnectField payload cursor
        let (_, cursor) ← consumeConnectField payload cursor
        .ok cursor
      else .ok cursor
    let cursor ← if connectFlags &&& 0x80 ≠ 0 then do
        let (_, cursor) ← consumeConnectField payload cursor
        .ok cursor
      else .ok cursor
    let cursor ← if connectFlags &&& 0x40 ≠ 0 then do
        let (_, cursor) ← consumeConnectField payload cursor
        .ok cursor
      else .ok cursor
    if cursor ≠ payload.length then .error (.payloadTooShort payload.length)
    else .ok ()

/-- `Result::map_err`. -/
def mapErr {ε δ α : Type} (f : ε → δ) : Checked ε α → Checked δ α
  | .ok a => .ok a
  | .error e => .error (f e)
  | .panic => .panic

/-! ### The remaining length -/

def remainingLengthBytes (length : ℕ) : List UInt8 :=
  let byte := UInt8.ofNat (length % 128)
  if length / 128 > 0 then (byte ||| 0x80) :: remainingLengthBytes (length / 128) else [byte]
termination_by length

def encodeRemainingLength (length : ℕ) : Checked MqttSerializeError (List UInt8) :=
  if length > mqttMaxRemainingLength then
    .error (.remainingLengthTooLarge length mqttMaxRemainingLength)
  else .ok (remainingLengthBytes length)

def decodeRemainingLengthFrom (data : List UInt8) (offset multiplier value : ℕ) :
    Checked MqttError (ℕ × ℕ) :=
  if offset ≥ data.length then .error .invalidRemainingLength
  else
    (index data offset).bind fun encodedByte =>
      let value := value + (encodedByte &&& 0x7F).toNat * multiplier
      let multiplier := multiplier * 128
      if encodedByte &&& 0x80 = 0 then .ok (value, offset + 1)
      else if multiplier > 128 * 128 * 128 then .error .invalidRemainingLength
      else decodeRemainingLengthFrom data (offset + 1) multiplier value
termination_by data.length - offset

def minimumLen (value : ℕ) : ℕ :=
  if value < 128 then 1 else if value < 128 * 128 then
    2 else if value < 128 * 128 * 128 then 3 else 4

def decodeRemainingLength (data : List UInt8) (offset : ℕ) : Checked MqttError (ℕ × ℕ) :=
  (decodeRemainingLengthFrom data offset 1 0).bind fun found =>
    if found.2 - offset ≠ minimumLen found.1 then .error .invalidRemainingLength
    else .ok found

/-! ### The encoder -/

def ConnectSemanticError.onSerialize : ConnectSemanticError → MqttSerializeError
  | .payloadTooShort length => .invalidConnectPayloadLength length
  | .invalidProtocolName => .invalidConnectProtocolName
  | .invalidProtocolLevel level => .invalidConnectProtocolLevel level
  | .invalidFlags flags => .invalidConnectFlags flags
  | .invalidClientId | .malformedUtf8 => .invalidConnectClientId

def ConnackSemanticError.onSerialize : ConnackSemanticError → MqttSerializeError
  | .invalidAcknowledgeFlags flags => .invalidConnackAcknowledgeFlags flags
  | .invalidReturnCode code => .invalidConnackReturnCode code
  | .sessionPresentWithError returnCode => .invalidConnackSessionPresent returnCode

def SubackSemanticError.onSerialize : SubackSemanticError → MqttSerializeError
  | .payloadTooShort length => .invalidSubackPayloadLength length
  | .invalidPacketIdentifier id => .invalidPacketIdentifier id
  | .invalidReturnCode code => .invalidSubackReturnCode code

def UnsubscribeSemanticError.onSerialize : UnsubscribeSemanticError → MqttSerializeError
  | .payloadTooShort length => .invalidUnsubscribePayloadLength length
  | .invalidPacketIdentifier id => .invalidPacketIdentifier id
  | .invalidTopicFilter | .malformedUtf8 => .invalidUnsubscribeTopicFilter

def qosOf (flags : UInt8) : UInt8 := (flags >>> 1) &&& 0x03

namespace MqttPacket

/-- The checks of `try_serialize` after the fixed-header flags, in their order: CONNECT, PUBLISH
QoS, fixed payload length, CONNACK, SUBACK, UNSUBSCRIBE, PUBACK and UNSUBACK. -/
def validate (p : MqttPacket) : Checked MqttSerializeError Unit :=
  match p.packetType with
  | .connect => mapErr ConnectSemanticError.onSerialize (validateConnectSemantics p.payload)
  | .publish => if qosOf p.flags > 2 then .error (.invalidQos (qosOf p.flags)) else .ok ()
  | .subscribe => .ok ()
  | .suback =>
    (mapErr SubackSemanticError.onSerialize (validateSubackSemantics p.payload)).bind fun _ =>
      .ok ()
  | .unsubscribe =>
    (mapErr UnsubscribeSemanticError.onSerialize (validateUnsubscribeSemantics p.payload)).bind
      fun _ => .ok ()
  | .connack =>
    if p.payload.length ≠ 2 then .error (.invalidPayloadLength p.packetType p.payload.length 2)
    else mapErr ConnackSemanticError.onSerialize (validateConnackSemantics p.payload)
  | .puback | .unsuback =>
    if p.payload.length ≠ 2 then .error (.invalidPayloadLength p.packetType p.payload.length 2)
    else
      (read16 p.payload 0).bind fun id =>
        if id = 0 then .error (.invalidPacketIdentifier id) else .ok ()
  | .pingreq | .pingresp | .disconnect =>
    if p.payload.length ≠ 0 then .error (.invalidPayloadLength p.packetType p.payload.length 0)
    else .ok ()

def trySerialize (p : MqttPacket) : Checked MqttSerializeError (List UInt8) :=
  if !fixedHeaderFlagsAreValid p.packetType p.flags then
    .error (.invalidFixedHeaderFlags p.packetType p.flags)
  else
    p.validate.bind fun _ =>
      (encodeRemainingLength p.payload.length).bind fun remaining =>
        .ok (((p.packetType.toU8 <<< 4) ||| (p.flags &&& 0x0F)) :: (remaining ++ p.payload))

end MqttPacket

/-! ### The decoder -/

def ConnectSemanticError.onParse : ConnectSemanticError → MqttError
  | .payloadTooShort length => .invalidConnectPayloadLength length
  | .invalidProtocolName => .invalidConnectProtocolName
  | .invalidProtocolLevel level => .invalidConnectProtocolLevel level
  | .invalidFlags flags => .invalidConnectFlags flags
  | .invalidClientId => .invalidConnectClientId
  | .malformedUtf8 => .malformedUtf8String

def ConnackSemanticError.onParse : ConnackSemanticError → MqttError
  | .invalidAcknowledgeFlags flags => .invalidConnackAcknowledgeFlags flags
  | .invalidReturnCode code => .invalidConnackReturnCode code
  | .sessionPresentWithError returnCode => .invalidConnackSessionPresent returnCode

def SubackSemanticError.onParse : SubackSemanticError → MqttError
  | .payloadTooShort length => .invalidSubackPayloadLength length
  | .invalidPacketIdentifier id => .invalidPacketIdentifier id
  | .invalidReturnCode code => .invalidSubackReturnCode code

def UnsubscribeSemanticError.onParse : UnsubscribeSemanticError → MqttError
  | .payloadTooShort length => .invalidUnsubscribePayloadLength length
  | .invalidPacketIdentifier id => .invalidPacketIdentifier id
  | .invalidTopicFilter => .invalidUnsubscribeTopicFilter
  | .malformedUtf8 => .malformedUtf8String

/-- The loop over the topic filters of a SUBSCRIBE from `cursor` on. -/
def subscribeTopics (payload : List UInt8) (cursor : ℕ) (firstTopic : Option String) :
    Checked MqttError (Option String) :=
  if cursor < payload.length then
    if payload.length - cursor < 2 then .error .packetTooShort
    else
      (read16 payload cursor).bind fun topicLen =>
        let topicStart := cursor + 2
        let topicEnd := topicStart + topicLen.toNat
        if topicEnd ≥ payload.length then .error .packetTooShort
        else
          (slice payload topicStart topicEnd).bind fun bytes =>
            (decodeUtf8 .malformedUtf8String bytes).bind fun topic =>
              (index payload topicEnd).bind fun requestedQos =>
                if requestedQos > 2 then .error (.invalidQos requestedQos)
                else subscribeTopics payload (topicEnd + 1) (firstTopic.or (some topic))
  else .ok firstTopic
termination_by payload.length - cursor

/-- Topic and packet identifier of a PUBLISH. -/
def parsePublish (flags : UInt8) (payload : List UInt8) :
    Checked MqttError (Option String × Option (BitVec 16)) :=
  if qosOf flags > 2 then .error (.invalidQos (qosOf flags))
  else if payload.length < 2 then .error .packetTooShort
  else
    (read16 payload 0).bind fun topicLen =>
      let topicEnd := 2 + topicLen.toNat
      if payload.length < topicEnd then .error .packetTooShort
      else
        (slice payload 2 topicEnd).bind fun bytes =>
          (decodeUtf8 .malformedUtf8String bytes).bind fun topic =>
            if qosOf flags > 0 then
              if payload.length < topicEnd + 2 then .error .packetTooShort
              else
                (read16 payload topicEnd).bind fun id =>
                  if id = 0 then .error (.invalidPacketIdentifier id) else .ok (some topic, some id)
            else .ok (some topic, none)

/-- Topic and packet identifier of a SUBSCRIBE. -/
def parseSubscribe (payload : List UInt8) :
    Checked MqttError (Option String × Option (BitVec 16)) :=
  if payload.length < 2 then .error .packetTooShort
  else
    (read16 payload 0).bind fun id =>
      if id = 0 then .error (.invalidPacketIdentifier id)
      else
        (subscribeTopics payload 2 none).bind fun firstTopic =>
          match firstTopic with
          | some topic => .ok (some topic, some id)
          | none => .error .packetTooShort

/-- Topic and packet identifier of a payload, by packet type. -/
def parsePayload (packetType : MqttPacketType) (flags : UInt8) (payload : List UInt8) :
    Checked MqttError (Option String × Option (BitVec 16)) :=
  match packetType with
  | .connect => (mapErr ConnectSemanticError.onParse (validateConnectSemantics payload)).bind
      fun _ => .ok (none, none)
  | .connack => (mapErr ConnackSemanticError.onParse (validateConnackSemantics payload)).bind
      fun _ => .ok (none, none)
  | .publish => parsePublish flags payload
  | .suback => (mapErr SubackSemanticError.onParse (validateSubackSemantics payload)).bind
      fun id => .ok (none, some id)
  | .unsubscribe =>
    (mapErr UnsubscribeSemanticError.onParse (validateUnsubscribeSemantics payload)).bind
      fun found => .ok (some found.2, some found.1)
  | .puback | .unsuback =>
    (read16 payload 0).bind fun id =>
      if id = 0 then .error (.invalidPacketIdentifier id) else .ok (none, some id)
  | .subscribe => parseSubscribe payload
  | .pingreq | .pingresp | .disconnect => .ok (none, none)

/-- The payload length a packet type fixes, if any. -/
def checkPayloadLength (packetType : MqttPacketType) (payload : List UInt8) :
    Checked MqttError Unit :=
  match fixedPayloadLength packetType with
  | some expected =>
    if payload.length ≠ expected then
      .error (.invalidPayloadLength packetType payload.length expected)
    else .ok ()
  | none => .ok ()

def MqttPacket.parse (data : List UInt8) : Checked MqttError MqttPacket :=
  if data.length < 2 then .error .packetTooShort
  else
    (index data 0).bind fun header =>
      let flags := header &&& 0x0F
      match MqttPacketType.fromU8 (header >>> 4) with
      | none => .error (.invalidPacketType (header >>> 4))
      | some packetType =>
        if !fixedHeaderFlagsAreValid packetType flags then
          .error (.invalidFixedHeaderFlags packetType flags)
        else
          (decodeRemainingLength data 1).bind fun found =>
            if data.length < found.2 + found.1 then .error .packetTooShort
            else
              (slice data found.2 (found.2 + found.1)).bind fun payload =>
                (checkPayloadLength packetType payload).bind fun _ =>
                  (parsePayload packetType flags payload).bind fun described =>
                    .ok ⟨packetType, flags, described.1, described.2, payload⟩

end ToyTcpip.Mqtt
