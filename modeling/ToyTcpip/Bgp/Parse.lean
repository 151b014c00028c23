import ToyTcpip.Bgp.Message
import ToyTcpip.Lib.Checked

/-! The decoders of `bgp.rs` and `bgp_mp.rs`, with every read of the input checked. -/
namespace ToyTcpip.Bgp

open Checked (index slice)

structure BgpParseError where
  code : UInt8
  subcode : UInt8
  reason : String
  deriving DecidableEq, Repr

namespace BgpParseError

def header (subcode : UInt8) (reason : String) : BgpParseError := ⟨1, subcode, reason⟩

def «open» (subcode : UInt8) (reason : String) : BgpParseError := ⟨2, subcode, reason⟩

def update (subcode : UInt8) (reason : String) : BgpParseError := ⟨3, subcode, reason⟩

end BgpParseError

abbrev Parsed (α : Type) : Type := Checked BgpParseError α

def bgpSubConnectionNotSynchronized : UInt8 := 1

def bgpSubBadMessageLength : UInt8 := 2

def bgpSubBadMessageType : UInt8 := 3

def bgpSubUnsupportedOptParam : UInt8 := 4

def bgpSubMalformedAttributeList : UInt8 := 1

def bgpSubUnrecognizedWellKnownAttr : UInt8 := 2

def bgpSubMissingWellKnownAttr : UInt8 := 3

def bgpSubAttributeFlagsError : UInt8 := 4

def bgpSubAttributeLengthError : UInt8 := 5

def bgpSubInvalidOrigin : UInt8 := 6

def bgpSubInvalidNetworkField : UInt8 := 10

def bgpSubMalformedAsPath : UInt8 := 11

/-- `copy_from_slice` of at most four octets into a zeroed address. -/
def addressOf (octets : List UInt8) : Ipv4Address := addressAt octets 0

def Ipv4Prefix.decodeList (subcode : UInt8) : List UInt8 → Parsed (List Ipv4Prefix)
  | [] => .ok []
  | bits :: rest =>
    if bits > 32 then .error (.update subcode s!"prefix length {bits} exceeds 32 bits")
    else
      let octets := octetsFor bits
      if 1 + octets > (bits :: rest).length then
        .error (.update subcode "truncated prefix in NLRI list")
      else
        (slice (bits :: rest) 1 (1 + octets)).bind fun addr =>
          (decodeList subcode (rest.drop octets)).bind fun out =>
            .ok (Ipv4Prefix.new (addressOf addr) bits :: out)
termination_by data => data.length
decreasing_by simp

/-- The `count` AS numbers that follow a segment header. -/
def decodeAsns (fourOctet : Bool) (data : List UInt8) : ℕ → ℕ → Parsed (List UInt32)
  | 0, _ => .ok []
  | count + 1, off => do
    if fourOctet then
      let a ← index data off
      let b ← index data (off + 1)
      let c ← index data (off + 2)
      let d ← index data (off + 3)
      let asns ← decodeAsns fourOctet data count (off + 4)
      .ok (beLong a b c d :: asns)
    else
      let a ← index data off
      let b ← index data (off + 1)
      let asns ← decodeAsns fourOctet data count (off + 2)
      .ok (UInt32.ofNat (beWord a b) :: asns)

def asnWidth (fourOctet : Bool) : ℕ := if fourOctet then 4 else 2

def AsPathSegmentKind.decode (code : UInt8) : Parsed AsPathSegmentKind :=
  match code with
  | bgpAsSet => .ok .set
  | bgpAsSequence => .ok .sequence
  | other => .error (.update bgpSubMalformedAsPath s!"unknown AS_PATH segment type {other}")

def decodeSegments (fourOctet : Bool) : List UInt8 → Parsed (List AsPathSegment)
  | [] => .ok []
  | code :: rest =>
    if 2 > (code :: rest).length then
      .error (.update bgpSubMalformedAsPath "truncated AS_PATH segment header")
    else
      (AsPathSegmentKind.decode code).bind fun kind =>
      (index (code :: rest) 1).bind fun countByte =>
        let count := countByte.toNat
        if count = 0 then .error (.update bgpSubMalformedAsPath "empty AS_PATH segment")
        else
          let stop := 2 + count * asnWidth fourOctet
          if stop > (code :: rest).length then
            .error (.update bgpSubMalformedAsPath "truncated AS_PATH segment body")
          else
            (decodeAsns fourOctet (code :: rest) count 2).bind fun asns =>
            (decodeSegments fourOctet (rest.drop (stop - 1))).bind fun segments =>
              .ok (⟨kind, asns⟩ :: segments)
termination_by data => data.length
decreasing_by simp

def AsPath.decodeWidth (data : List UInt8) (fourOctet : Bool) : Parsed AsPath :=
  (decodeSegments fourOctet data).bind fun segments => .ok ⟨segments⟩

/-- AS4_PATH replaces as many trailing hops of the two-octet path as it holds. -/
def AsPath.mergeAs4Path (p as4 : AsPath) : AsPath :=
  let narrow := p.flatten
  let wide := as4.flatten
  if wide.isEmpty ∨ wide.length > narrow.length then p
  else if (p.segments ++ as4.segments).any fun s => s.kind ≠ .sequence then p
  else .sequence (narrow.take (narrow.length - wide.length) ++ wide)

def MpReachNlri.parseValue (value : List UInt8) : Parsed MpReachNlri :=
  if value.length < 5 then
    .error
      (.update bgpSubAttributeLengthError s!"MP_REACH_NLRI is {value.length} bytes, minimum is 5")
  else do
    let a ← index value 0
    let b ← index value 1
    let safi ← index value 2
    let nhLenByte ← index value 3
    let nhLen := nhLenByte.toNat
    let nhEnd := 4 + nhLen
    if nhEnd ≥ value.length then
      .error (.update bgpSubAttributeLengthError
        s!"MP_REACH_NLRI next hop of {nhLen} bytes runs past the {value.length}-byte attribute")
    else
      (slice value (nhEnd + 1) value.length).bind fun nlri =>
        if nlri.length > maxMpNlriBytes then
          .error (.update bgpSubInvalidNetworkField
            "MP_REACH_NLRI payload exceeds the maximum BGP message size")
        else
          (slice value 4 nhEnd).bind fun nextHop =>
            .ok ⟨UInt16.ofNat (beWord a b), safi, nextHop, nlri⟩

def MpUnreachNlri.parseValue (value : List UInt8) : Parsed MpUnreachNlri :=
  if value.length < 3 then
    .error (.update bgpSubAttributeLengthError
      s!"MP_UNREACH_NLRI is {value.length} bytes, minimum is 3")
  else
    (slice value 3 value.length).bind fun nlri =>
      if nlri.length > maxMpNlriBytes then
        .error (.update bgpSubInvalidNetworkField
          "MP_UNREACH_NLRI payload exceeds the maximum BGP message size")
      else do
        let a ← index value 0
        let b ← index value 1
        let safi ← index value 2
        .ok ⟨UInt16.ofNat (beWord a b), safi, nlri⟩

structure ParsedAttributes where
  origin : Option BgpOrigin := none
  asPath : Option AsPath := none
  as4Path : Option AsPath := none
  nextHop : Option Ipv4Address := none
  med : Option UInt32 := none
  localPref : Option UInt32 := none
  atomicAggregate : Bool := false
  extCommunities : List (Vector UInt8 8) := []
  mpReach : Option MpReachNlri := none
  mpUnreach : Option MpUnreachNlri := none
  originatorId : Option Ipv4Address := none
  clusterList : List Ipv4Address := []
  deriving DecidableEq, Repr

/-- `chunks_exact(8)`. -/
def communitiesOf : List UInt8 → List (Vector UInt8 8)
  | a :: b :: c :: d :: e :: f :: g :: h :: rest => #v[a, b, c, d, e, f, g, h] :: communitiesOf rest
  | _ => []

/-- `chunks_exact(4)`. -/
def addressesOf : List UInt8 → List Ipv4Address
  | a :: b :: c :: d :: rest => ⟨a, b, c, d⟩ :: addressesOf rest
  | _ => []

def readAddress (value : List UInt8) : Parsed Ipv4Address := do
  let a ← index value 0
  let b ← index value 1
  let c ← index value 2
  let d ← index value 3
  .ok ⟨a, b, c, d⟩

def readLong (value : List UInt8) : Parsed UInt32 := do
  let a ← index value 0
  let b ← index value 1
  let c ← index value 2
  let d ← index value 3
  .ok (beLong a b c d)

def optional (flags : UInt8) : Bool := flags &&& bgpAttrFlagOptional ≠ 0

def transitive (flags : UInt8) : Bool := flags &&& bgpAttrFlagTransitive ≠ 0

def parseOrigin (flags : UInt8) (value : List UInt8) : Parsed BgpOrigin :=
  if optional flags then .error (.update bgpSubAttributeFlagsError "ORIGIN marked optional")
  else if value.length ≠ 1 then
    .error (.update bgpSubAttributeLengthError "ORIGIN must be exactly one byte")
  else
    (index value 0).bind fun v =>
      match BgpOrigin.fromU8 v with
      | some origin => .ok origin
      | none => .error (.update bgpSubInvalidOrigin s!"undefined ORIGIN value {v}")

def parseAsPath (fourOctetAs : Bool) (flags : UInt8) (value : List UInt8) : Parsed AsPath :=
  if optional flags then .error (.update bgpSubAttributeFlagsError "AS_PATH marked optional")
  else AsPath.decodeWidth value fourOctetAs

def parseAs4Path (flags : UInt8) (value : List UInt8) : Parsed AsPath :=
  if !optional flags then
    .error (.update bgpSubAttributeFlagsError "AS4_PATH must be marked optional")
  else AsPath.decodeWidth value true

def parseNextHop (flags : UInt8) (value : List UInt8) : Parsed Ipv4Address :=
  if optional flags then .error (.update bgpSubAttributeFlagsError "NEXT_HOP marked optional")
  else if value.length ≠ 4 then
    .error (.update bgpSubAttributeLengthError "NEXT_HOP must be exactly four bytes")
  else readAddress value

/-- MULTI_EXIT_DISC and LOCAL_PREF: the length is checked and the flags are not. -/
def parseLong (name : String) (value : List UInt8) : Parsed UInt32 :=
  if value.length ≠ 4 then
    .error (.update bgpSubAttributeLengthError s!"{name} must be exactly four bytes")
  else readLong value

def parseAtomicAggregate (value : List UInt8) : Parsed Bool :=
  if !value.isEmpty then
    .error (.update bgpSubAttributeLengthError "ATOMIC_AGGREGATE must be empty")
  else .ok true

def parseExtCommunities (value : List UInt8) : Parsed (List (Vector UInt8 8)) :=
  if value.isEmpty || value.length % 8 ≠ 0 then
    .error (.update bgpSubAttributeLengthError
      s!"EXTENDED_COMMUNITIES is {value.length} bytes, must be a non-zero multiple of 8")
  else .ok (communitiesOf value)

def parseOriginatorId (flags : UInt8) (value : List UInt8) : Parsed Ipv4Address :=
  if !optional flags || transitive flags then
    .error (.update bgpSubAttributeFlagsError "ORIGINATOR_ID must be optional and non-transitive")
  else if value.length ≠ 4 then
    .error (.update bgpSubAttributeLengthError
      s!"ORIGINATOR_ID is {value.length} bytes, must be exactly four")
  else readAddress value

def parseClusterList (flags : UInt8) (value : List UInt8) : Parsed (List Ipv4Address) :=
  if !optional flags || transitive flags then
    .error (.update bgpSubAttributeFlagsError "CLUSTER_LIST must be optional and non-transitive")
  else if value.isEmpty || value.length % 4 ≠ 0 then
    .error (.update bgpSubAttributeLengthError
      s!"CLUSTER_LIST is {value.length} bytes, must be a non-zero multiple of 4")
  else if value.length / 4 > maxClusterListLen then
    .error (.update bgpSubAttributeLengthError
      (s!"CLUSTER_LIST carries {value.length / 4} cluster IDs, " ++
        s!"more than the {maxClusterListLen} accepted"))
  else .ok (addressesOf value)

def parseMpReach (flags : UInt8) (value : List UInt8) : Parsed MpReachNlri :=
  if !optional flags then
    .error (.update bgpSubAttributeFlagsError "MP_REACH_NLRI must be marked optional")
  else MpReachNlri.parseValue value

def parseMpUnreach (flags : UInt8) (value : List UInt8) : Parsed MpUnreachNlri :=
  if !optional flags then
    .error (.update bgpSubAttributeFlagsError "MP_UNREACH_NLRI must be marked optional")
  else MpUnreachNlri.parseValue value

/-- One attribute of the block, by its type code. An unknown one is ignored if it is optional. -/
def parseAttributeValue (fourOctetAs : Bool) (flags typeCode : UInt8) (value : List UInt8)
    (parsed : ParsedAttributes) : Parsed ParsedAttributes :=
  match typeCode with
  | bgpAttrOrigin => (parseOrigin flags value).bind fun o => .ok { parsed with origin := some o }
  | bgpAttrAsPath =>
    (parseAsPath fourOctetAs flags value).bind fun p => .ok { parsed with asPath := some p }
  | bgpAttrAs4Path => (parseAs4Path flags value).bind fun p => .ok { parsed with as4Path := some p }
  | bgpAttrNextHop => (parseNextHop flags value).bind fun ip =>
    .ok { parsed with nextHop := some ip }
  | bgpAttrMed =>
    (parseLong "MULTI_EXIT_DISC" value).bind fun med => .ok { parsed with med := some med }
  | bgpAttrLocalPref =>
    (parseLong "LOCAL_PREF" value).bind fun lp => .ok { parsed with localPref := some lp }
  | bgpAttrAtomicAggregate =>
    (parseAtomicAggregate value).bind fun b => .ok { parsed with atomicAggregate := b }
  | bgpAttrExtCommunities =>
    (parseExtCommunities value).bind fun comms =>
      .ok { parsed with extCommunities := parsed.extCommunities ++ comms }
  | bgpAttrOriginatorId =>
    (parseOriginatorId flags value).bind fun ip => .ok { parsed with originatorId := some ip }
  | bgpAttrClusterList =>
    (parseClusterList flags value).bind fun ids =>
      .ok { parsed with clusterList := parsed.clusterList ++ ids }
  | bgpAttrMpReachNlri => (parseMpReach flags value).bind fun mp =>
    .ok { parsed with mpReach := some mp }
  | bgpAttrMpUnreachNlri =>
    (parseMpUnreach flags value).bind fun mp => .ok { parsed with mpUnreach := some mp }
  | other =>
    if !optional flags then
      .error (.update bgpSubUnrecognizedWellKnownAttr
        s!"unrecognized well-known attribute {other}")
    else .ok parsed

structure AttributeHeader where
  flags : UInt8
  typeCode : UInt8
  len : ℕ
  hdr : ℕ

def attributeHeader (data : List UInt8) : Parsed AttributeHeader :=
  if 2 > data.length then
    .error (.update bgpSubMalformedAttributeList "truncated path attribute header")
  else do
    let flags ← index data 0
    let typeCode ← index data 1
    if flags &&& bgpAttrFlagExtLen ≠ 0 then
      if 4 > data.length then
        .error (.update bgpSubAttributeLengthError "truncated extended attribute length")
      else
        let hi ← index data 2
        let lo ← index data 3
        .ok ⟨flags, typeCode, beWord hi lo, 4⟩
    else
      if 3 > data.length then
        .error (.update bgpSubAttributeLengthError "truncated attribute length")
      else
        let len ← index data 2
        .ok ⟨flags, typeCode, len.toNat, 3⟩

/-- The loop over the attribute block: what is left of it, the type codes seen, and what they
gave. -/
def parseAttributesFrom (fourOctetAs : Bool) :
    List UInt8 → List UInt8 → ParsedAttributes → Parsed ParsedAttributes
  | [], _, parsed => .ok parsed
  | b :: tail, seen, parsed =>
    (attributeHeader (b :: tail)).bind fun h =>
      let valEnd := h.hdr + h.len
      if valEnd > (b :: tail).length then
        let remain := (b :: tail).length - h.hdr
        .error (.update bgpSubAttributeLengthError
          s!"attribute {h.typeCode} claims {h.len} bytes but only {remain} remain")
      else if seen.contains h.typeCode then
        .error (.update bgpSubMalformedAttributeList s!"duplicate path attribute {h.typeCode}")
      else
        (slice (b :: tail) h.hdr valEnd).bind fun value =>
        (parseAttributeValue fourOctetAs h.flags h.typeCode value parsed).bind fun parsed =>
          parseAttributesFrom fourOctetAs (tail.drop (valEnd - 1)) (seen ++ [h.typeCode]) parsed
termination_by data => data.length
decreasing_by simp

def parseAttributes (fourOctetAs : Bool) (data : List UInt8) : Parsed ParsedAttributes :=
  parseAttributesFrom fourOctetAs data [] {}

/-- An attribute that was read, or its default where the message need not carry it. -/
def demandAttribute {α : Type} (found : Option α) (required : Bool) (default : α) (what : String) :
    Parsed α :=
  match found with
  | some v => .ok v
  | none =>
    if required then .error (.update bgpSubMissingWellKnownAttr s!"UPDATE has no {what}")
    else .ok default

/-- The attributes a message had to carry, then AS4_PATH folded into AS_PATH. -/
def ParsedAttributes.intoAttributes (p : ParsedAttributes) (hasIpv4Nlri announcesMp : Bool) :
    Parsed BgpPathAttributes := do
  let announces := hasIpv4Nlri || announcesMp
  let origin ← demandAttribute p.origin announces .igp "ORIGIN"
  let asPath ← demandAttribute p.asPath announces .empty "AS_PATH"
  let nextHop ← demandAttribute p.nextHop hasIpv4Nlri .unspecified "NEXT_HOP"
  let asPath := match p.as4Path with
    | some as4 => asPath.mergeAs4Path as4
    | none => asPath
  .ok { origin, asPath, nextHop, med := p.med, localPref := p.localPref,
        atomicAggregate := p.atomicAggregate, extCommunities := p.extCommunities,
        mpReach := p.mpReach, mpUnreach := p.mpUnreach, originatorId := p.originatorId,
        clusterList := p.clusterList, fourOctetAs := false }

def BgpUpdateMessage.parseBodyWidth (body : List UInt8) (fourOctetAs : Bool) :
    Parsed BgpUpdateMessage :=
  if body.length < 4 then
    .error (.update bgpSubMalformedAttributeList "UPDATE body shorter than the two length fields")
  else do
    let a ← index body 0
    let b ← index body 1
    let withdrawnLen := beWord a b
    if 2 + withdrawnLen + 2 > body.length then
      .error (.update bgpSubMalformedAttributeList
        "withdrawn routes length runs past the end of the UPDATE")
    else
      let withdrawnBytes ← slice body 2 (2 + withdrawnLen)
      let withdrawn ← Ipv4Prefix.decodeList bgpSubInvalidNetworkField withdrawnBytes
      let attrLenOff := 2 + withdrawnLen
      let hi ← index body attrLenOff
      let lo ← index body (attrLenOff + 1)
      let attrStart := attrLenOff + 2
      let attrEnd := attrStart + beWord hi lo
      if attrEnd > body.length then
        .error (.update bgpSubMalformedAttributeList
          "path attribute length runs past the end of the UPDATE")
      else
        let attrBytes ← slice body attrStart attrEnd
        let parsed ← parseAttributes fourOctetAs attrBytes
        let nlriBytes ← slice body attrEnd body.length
        let nlri ← Ipv4Prefix.decodeList bgpSubInvalidNetworkField nlriBytes
        let announcesMp := parsed.mpReach.isSome
        if !nlri.isEmpty || announcesMp || parsed.mpUnreach.isSome then
          let attributes ← parsed.intoAttributes (!nlri.isEmpty) announcesMp
          .ok ⟨withdrawn, some attributes, nlri⟩
        else .ok ⟨withdrawn, none, nlri⟩

def BgpOpenMessage.parseBody (body : List UInt8) : Parsed BgpOpenMessage :=
  if body.length < 10 then
    .error (.header bgpSubBadMessageLength "OPEN body shorter than the 10-byte fixed part")
  else do
    let optLenByte ← index body 9
    let optLen := optLenByte.toNat
    if 10 + optLen > body.length then
      .error (.open bgpSubUnsupportedOptParam
        "optional parameter length runs past the end of the OPEN")
    else
      let version ← index body 0
      let a ← index body 1
      let b ← index body 2
      let c ← index body 3
      let d ← index body 4
      let i ← index body 5
      let j ← index body 6
      let k ← index body 7
      let l ← index body 8
      let optParams ← slice body 10 (10 + optLen)
      .ok ⟨version, UInt16.ofNat (beWord a b), UInt16.ofNat (beWord c d), ⟨i, j, k, l⟩, optParams⟩

def BgpRouteRefreshMessage.parseBody (body : List UInt8) : Parsed BgpRouteRefreshMessage :=
  if body.length ≠ 4 then
    .error (.header bgpSubBadMessageLength
      s!"ROUTE-REFRESH body is {body.length} bytes, must be exactly 4")
  else do
    let a ← index body 0
    let b ← index body 1
    let subtype ← index body 2
    let safi ← index body 3
    .ok ⟨⟨UInt16.ofNat (beWord a b), safi⟩, .fromCode subtype⟩

/-- The smallest length a message of a type may state. -/
def minMessageLen (msgType : UInt8) : Parsed ℕ :=
  match msgType with
  | bgpMsgOpen => .ok (bgpHeaderLen + 10)
  | bgpMsgUpdate => .ok (bgpHeaderLen + 4)
  | bgpMsgNotification => .ok (bgpHeaderLen + 2)
  | bgpMsgKeepalive => .ok bgpHeaderLen
  | bgpMsgRouteRefresh => .ok bgpHeaderLen
  | other => .error (.header bgpSubBadMessageType s!"unsupported message type {other}")

def parseBgpHeader (frame : List UInt8) : Parsed (UInt8 × List UInt8) :=
  if frame.length < bgpHeaderLen then
    .error (.header bgpSubBadMessageLength
      s!"frame of {frame.length} bytes is shorter than the header")
  else do
    let marker ← slice frame 0 16
    if marker ≠ bgpMarker then
      .error (.header bgpSubConnectionNotSynchronized
        "marker is not the all-ones synchronisation pattern")
    else
      let hi ← index frame 16
      let lo ← index frame 17
      let length := beWord hi lo
      let msgType ← index frame 18
      if ¬ (bgpHeaderLen ≤ length ∧ length ≤ bgpMaxMessageLen) then
        .error (.header bgpSubBadMessageLength s!"length field {length} is outside 19..=4096")
      else
        let minLen ← minMessageLen msgType
        if length < minLen then
          .error (.header bgpSubBadMessageLength
            s!"length {length} too small for message type {msgType}")
        else if frame.length ≠ length then
          .error (.header bgpSubBadMessageLength
            s!"frame carries {frame.length} bytes but the length field says {length}")
        else
          let body ← slice frame bgpHeaderLen length
          .ok (msgType, body)

def BgpPdu.parseWidth (frame : List UInt8) (fourOctetAs : Bool) : Parsed BgpPdu := do
  let (msgType, body) ← parseBgpHeader frame
  match msgType with
  | bgpMsgOpen => (BgpOpenMessage.parseBody body).bind fun o => .ok (.open o)
  | bgpMsgUpdate =>
    (BgpUpdateMessage.parseBodyWidth body fourOctetAs).bind fun u => .ok (.update u)
  | bgpMsgNotification =>
    if body.length < 2 then
      .error (.header bgpSubBadMessageLength "NOTIFICATION shorter than its two-byte error code")
    else do
      let code ← index body 0
      let subcode ← index body 1
      let data ← slice body 2 body.length
      .ok (.notification ⟨code, subcode, data⟩)
  | bgpMsgKeepalive =>
    if ¬ body.isEmpty then
      .error (.header bgpSubBadMessageLength "KEEPALIVE must be exactly 19 bytes")
    else .ok .keepalive
  | bgpMsgRouteRefresh =>
    (BgpRouteRefreshMessage.parseBody body).bind fun r => .ok (.routeRefresh r)
  | other => .error (.header bgpSubBadMessageType s!"unsupported message type {other}")

end ToyTcpip.Bgp
