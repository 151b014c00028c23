import ToyTcpip.Bgp.AttributeWire
import ToyTcpip.Bgp.Reads

/-! Round trip of the BGP message codec. -/
namespace ToyTcpip.Bgp

open Checked (index slice)

section messages

variable {w : Bool}

/-- The path a receiver at width `w` ends with, after the AS4_PATH merge. -/
def AsPath.received (p : AsPath) (w : Bool) : AsPath :=
  if !w && p.needsFourOctets then (p.onWire false).mergeAs4Path (p.onWire true) else p.onWire w

/-- What a message carries of its attributes: a pure multiprotocol withdrawal nothing else, a
message without IPv4 NLRI no next hop of its own, and none the width of the session. -/
def BgpPathAttributes.canonical (a : BgpPathAttributes) (hasIpv4Nlri : Bool) : BgpPathAttributes :=
  match a.mpUnreach, a.isMpWithdrawOnly hasIpv4Nlri with
  | some mp, true => .mpWithdraw mp
  | _, _ =>
    { a with
      asPath := a.asPath.received a.fourOctetAs
      nextHop := if hasIpv4Nlri then a.nextHop else .unspecified
      fourOctetAs := false }

def BgpUpdateMessage.canonical (u : BgpUpdateMessage) : BgpUpdateMessage where
  withdrawn := u.withdrawn.map Ipv4Prefix.masked
  attributes := match u.attributes with
    | some a => if u.describes a then some (a.canonical (!u.nlri.isEmpty)) else none
    | none => none
  nlri := u.nlri.map Ipv4Prefix.masked

def BgpPdu.canonical : BgpPdu → BgpPdu
  | .update u => .update u.canonical
  | m => m

/-- Prefixes of at most 32 bits, and attributes for announced IPv4 prefixes. -/
structure BgpUpdateMessage.Valid (u : BgpUpdateMessage) : Prop where
  withdrawn : ∀ p ∈ u.withdrawn, p.length ≤ 32
  nlri : ∀ p ∈ u.nlri, p.length ≤ 32
  attributes : ∀ a ∈ u.attributes, a.Valid
  described : u.nlri ≠ [] → u.attributes ≠ none

/-- The fields fit the octets that hold them, and an unassigned subtype is not an assigned one. -/
def BgpPdu.Valid : BgpPdu → Prop
  | .open o => o.optParams.length ≤ 255
  | .update u => u.Valid
  | .routeRefresh r => BgpRouteRefreshSubtype.fromCode r.subtype.code = r.subtype
  | _ => True

/-- The AS width the attributes of a message are written with. -/
def BgpPdu.WrittenFor (w : Bool) : BgpPdu → Prop
  | .update u => ∀ a ∈ u.attributes, a.fourOctetAs = w
  | _ => True

theorem intoAttributes_readBack (a : BgpPathAttributes) (hasIpv4Nlri : Bool)
    (h : a.isMpWithdrawOnly hasIpv4Nlri = false) :
    (a.readBack hasIpv4Nlri).intoAttributes hasIpv4Nlri a.mpReach.isSome =
      .ok (a.canonical hasIpv4Nlri) := by
  have hcanon : a.canonical hasIpv4Nlri =
      { a with
        asPath := a.asPath.received a.fourOctetAs
        nextHop := if hasIpv4Nlri then a.nextHop else .unspecified
        fourOctetAs := false } := by
    unfold BgpPathAttributes.canonical
    split
    · simp_all
    · rfl
  have hnext : demandAttribute (if hasIpv4Nlri then some a.nextHop else none) hasIpv4Nlri
      Ipv4Address.unspecified "NEXT_HOP" =
      .ok (if hasIpv4Nlri then a.nextHop else .unspecified) := by
    cases hasIpv4Nlri <;> rfl
  rw [hcanon]
  simp only [ParsedAttributes.intoAttributes, BgpPathAttributes.readBack, Checked.bind_def,
    demandAttribute, Checked.ok_bind, AsPath.received]
  simp only [demandAttribute] at hnext
  rw [hnext, Checked.ok_bind]
  split <;> simp_all

/-- The attributes a parsed block stands for in a message. -/
def ParsedAttributes.attributesOf (p : ParsedAttributes) (hasIpv4Nlri : Bool) :
    Parsed (Option BgpPathAttributes) :=
  if hasIpv4Nlri || p.mpReach.isSome || p.mpUnreach.isSome then
    (p.intoAttributes hasIpv4Nlri p.mpReach.isSome).bind fun a => .ok (some a)
  else .ok none

theorem attributesOf_attrBytes {u : BgpUpdateMessage} (hu : u.Valid)
    (hw : ∀ a ∈ u.attributes, a.fourOctetAs = w) (hlen : u.attrBytes.length ≤ 4096) :
    ∃ p, parseAttributes w u.attrBytes = .ok p ∧
      p.attributesOf (!u.nlri.isEmpty) = .ok u.canonical.attributes := by
  have hempty : parseAttributes w [] = .ok {} := by rw [parseAttributes, parseAttributesFrom]
  cases ha : u.attributes with
  | none =>
    have hnlri : u.nlri = [] := by
      by_contra hne
      exact hu.described hne ha
    refine ⟨{}, by rw [BgpUpdateMessage.attrBytes, ha, hempty], ?_⟩
    simp [ParsedAttributes.attributesOf, hnlri, BgpUpdateMessage.canonical, ha]
  | some a =>
    by_cases hd : u.describes a = true
    · have hbytes : u.attrBytes = a.encodeFor (!u.nlri.isEmpty) := by
        rw [BgpUpdateMessage.attrBytes, ha]
        exact if_pos hd
      have hcanon : u.canonical.attributes = some (a.canonical (!u.nlri.isEmpty)) := by
        simp [BgpUpdateMessage.canonical, ha, hd]
      rw [hbytes] at hlen
      rw [hbytes, hcanon]
      cases honly : a.isMpWithdrawOnly (!u.nlri.isEmpty) with
      | true =>
        obtain ⟨mp, hmp⟩ : ∃ mp, a.mpUnreach = some mp := by
          simp only [BgpPathAttributes.isMpWithdrawOnly, Bool.and_eq_true] at honly
          exact Option.isSome_iff_exists.mp honly.1.1
        have hnlri : (!u.nlri.isEmpty) = false := by
          simp only [BgpPathAttributes.isMpWithdrawOnly, Bool.and_eq_true] at honly
          simpa using honly.2
        refine ⟨_, parseAttributes_mpWithdraw hmp honly hlen, ?_⟩
        have hmpCanon : a.canonical (!u.nlri.isEmpty) = .mpWithdraw mp := by
          simp [BgpPathAttributes.canonical, hmp, honly]
        rw [hmpCanon, hnlri]
        rfl
      | false =>
        have hwa : a.fourOctetAs = w := hw a (by simp [ha])
        refine ⟨a.readBack (!u.nlri.isEmpty), ?_, ?_⟩
        · rw [← hwa]
          exact parseAttributes_encodeFor (hu.attributes a (by simp [ha])) honly hlen
        · have hcond : ((!u.nlri.isEmpty) || (a.readBack (!u.nlri.isEmpty)).mpReach.isSome ||
              (a.readBack (!u.nlri.isEmpty)).mpUnreach.isSome) = true := hd
          rw [ParsedAttributes.attributesOf, if_pos hcond]
          exact Checked.bind_of_eq_ok _ (intoAttributes_readBack a _ honly)
    · simp only [Bool.not_eq_true] at hd
      have hnone := hd
      simp only [BgpUpdateMessage.describes, Bool.or_eq_false_iff] at hnone
      refine ⟨{}, ?_, ?_⟩
      · rw [BgpUpdateMessage.attrBytes, ha]
        simp [hd, hempty]
      · simp [ParsedAttributes.attributesOf, hnone.1.1, BgpUpdateMessage.canonical, ha, hd]

/-- The body of an UPDATE, from its three lists. -/
def updateBody (withdrawn attributes nlri : List UInt8) : List UInt8 :=
  toBeBytes16 withdrawn.length ++ withdrawn ++ toBeBytes16 attributes.length ++ attributes ++ nlri

theorem length_updateBody (W A N : List UInt8) :
    (updateBody W A N).length = 4 + W.length + A.length + N.length := by
  simp [updateBody, toBeBytes16]
  omega

/-- A body whose lists fit their length fields is read list by list. -/
theorem parseBodyWidth_updateBody {W A : List UInt8} (hW : W.length < 65536) (hA : A.length < 65536)
    (N : List UInt8) :
    BgpUpdateMessage.parseBodyWidth (updateBody W A N) w =
      (Ipv4Prefix.decodeList bgpSubInvalidNetworkField W).bind fun withdrawn =>
      (parseAttributes w A).bind fun parsed =>
      (Ipv4Prefix.decodeList bgpSubInvalidNetworkField N).bind fun nlri =>
      (parsed.attributesOf (!nlri.isEmpty)).bind fun attributes =>
        .ok ⟨withdrawn, attributes, nlri⟩ := by
  have htotal := length_updateBody W A N
  have hsplit : updateBody W A N =
      (toBeBytes16 W.length ++ W) ++ (toBeBytes16 A.length ++ (A ++ N)) := by
    simp [updateBody]
  have hoff : (toBeBytes16 W.length ++ W).length = 2 + W.length := by
    simp [toBeBytes16]
    omega
  have h₀ : (index (updateBody W A N) 0 : Parsed UInt8) = .ok (UInt8.ofNat (W.length / 256)) := rfl
  have h₁ : (index (updateBody W A N) 1 : Parsed UInt8) = .ok (UInt8.ofNat W.length) := rfl
  have h₂ : (index (updateBody W A N) (2 + W.length) : Parsed UInt8) =
      .ok (UInt8.ofNat (A.length / 256)) := by
    rw [hsplit, ← hoff]
    exact Checked.index_append_right _ _ 0
  have h₃ : (index (updateBody W A N) (2 + W.length + 1) : Parsed UInt8) =
      .ok (UInt8.ofNat A.length) := by
    rw [hsplit, ← hoff]
    exact Checked.index_append_right _ _ 1
  have hsliceW : (slice (updateBody W A N) 2 (2 + W.length) : Parsed (List UInt8)) = .ok W := by
    rw [show updateBody W A N = toBeBytes16 W.length ++ (W ++ (toBeBytes16 A.length ++ (A ++ N))) by
      simp [updateBody]]
    exact Checked.slice_middle _ _ _
  have hpre : (toBeBytes16 W.length ++ W ++ toBeBytes16 A.length).length = 2 + W.length + 2 := by
    simp [toBeBytes16]
    omega
  have hsliceA : (slice (updateBody W A N) (2 + W.length + 2) (2 + W.length + 2 + A.length) :
      Parsed (List UInt8)) = .ok A := by
    rw [show updateBody W A N = (toBeBytes16 W.length ++ W ++ toBeBytes16 A.length) ++ (A ++ N) by
      simp [updateBody], ← hpre]
    exact Checked.slice_middle _ _ _
  have hsliceN : (slice (updateBody W A N) (2 + W.length + 2 + A.length) (updateBody W A N).length :
      Parsed (List UInt8)) = .ok N := by
    rw [Checked.slice_eq_ok (by omega) le_rfl, List.take_length, updateBody,
      List.drop_left' (by rw [List.length_append, hpre])]
  have hwlen : beWord (UInt8.ofNat (W.length / 256)) (UInt8.ofNat W.length) = W.length :=
    beWord_toBeBytes16 hW
  have halen : beWord (UInt8.ofNat (A.length / 256)) (UInt8.ofNat A.length) = A.length :=
    beWord_toBeBytes16 hA
  rw [BgpUpdateMessage.parseBodyWidth, if_neg (by omega)]
  simp only [Checked.bind_def, h₀, h₁, Checked.ok_bind, hwlen]
  rw [if_neg (by omega), hsliceW, Checked.ok_bind, h₂, h₃]
  have hfits : ¬ 2 + W.length + 2 + A.length > (updateBody W A N).length := by omega
  simp only [Checked.ok_bind, halen, if_neg hfits, hsliceA, hsliceN]
  refine congrArg _ (funext fun withdrawn => congrArg _ (funext fun parsed =>
    congrArg _ (funext fun nlri => ?_)))
  rw [ParsedAttributes.attributesOf]
  split
  · rw [Checked.bind_assoc]
    rfl
  · rfl

theorem parseBodyWidth_encodeBody {u : BgpUpdateMessage} (hu : u.Valid)
    (hw : ∀ a ∈ u.attributes, a.fourOctetAs = w) (hlen : u.encodeBody.length ≤ 4096) :
    BgpUpdateMessage.parseBodyWidth u.encodeBody w = .ok u.canonical := by
  obtain ⟨W, hW⟩ : ∃ W, u.withdrawn.flatMap Ipv4Prefix.encode = W := ⟨_, rfl⟩
  obtain ⟨N, hN⟩ : ∃ N, u.nlri.flatMap Ipv4Prefix.encode = N := ⟨_, rfl⟩
  have hbody : u.encodeBody = updateBody W u.attrBytes N := by
    simp only [BgpUpdateMessage.encodeBody, updateBody, hW, hN]
  rw [hbody, length_updateBody] at hlen
  obtain ⟨p, hparse, hattrs⟩ := attributesOf_attrBytes hu hw (by omega)
  have hdecW : Ipv4Prefix.decodeList bgpSubInvalidNetworkField W =
      .ok (u.withdrawn.map Ipv4Prefix.masked) := hW ▸ decodeList_encode _ hu.withdrawn
  have hdecN : Ipv4Prefix.decodeList bgpSubInvalidNetworkField N =
      .ok (u.nlri.map Ipv4Prefix.masked) := hN ▸ decodeList_encode _ hu.nlri
  have hnlri : (u.nlri.map Ipv4Prefix.masked).isEmpty = u.nlri.isEmpty := by
    cases u.nlri <;> rfl
  rw [hbody, parseBodyWidth_updateBody (by omega) (by omega)]
  simp only [hdecW, hparse, hdecN, hnlri, hattrs, Checked.ok_bind]
  rfl

/-- As many octets of the parameters come back as their length octet counts. -/
theorem parseBody_encodeBody (o : BgpOpenMessage) : BgpOpenMessage.parseBody o.encodeBody =
    .ok { o with optParams := o.optParams.take (o.optParams.length % 256) } := by
  have has := ofNat_beWord o.myAs
  have hhold := ofNat_beWord o.holdTime
  have hopt : (UInt8.ofNat o.optParams.length).toNat = o.optParams.length % 256 := by simp
  obtain ⟨pre, hpre, hbody⟩ : ∃ pre : List UInt8, pre.length = 10 ∧
      o.encodeBody = pre ++ (o.optParams.take (o.optParams.length % 256) ++
        o.optParams.drop (o.optParams.length % 256)) :=
    ⟨[o.version] ++ toBeBytes16 o.myAs.toNat ++ toBeBytes16 o.holdTime.toNat ++ o.bgpId.octets ++
      [UInt8.ofNat o.optParams.length], rfl, by simp [BgpOpenMessage.encodeBody]⟩
  have hle : o.optParams.length % 256 ≤ o.optParams.length := Nat.mod_le _ _
  have hlen : o.encodeBody.length = 10 + o.optParams.length := by
    rw [hbody, List.take_append_drop]
    simp [hpre]
  have hslice : (slice o.encodeBody 10 (10 + o.optParams.length % 256) : Parsed (List UInt8)) =
      .ok (o.optParams.take (o.optParams.length % 256)) := by
    have hmid := @Checked.slice_middle BgpParseError _ pre
      (o.optParams.take (o.optParams.length % 256)) (o.optParams.drop (o.optParams.length % 256))
    rwa [← hbody, hpre, List.length_take, Nat.min_eq_left hle] at hmid
  have h₉ : (index o.encodeBody 9 : Parsed UInt8) = .ok (UInt8.ofNat o.optParams.length) := rfl
  rw [BgpOpenMessage.parseBody, if_neg (by omega)]
  simp only [Checked.bind_def, h₉, Checked.ok_bind, hopt]
  rw [if_neg (by omega), hslice]
  simp only [BgpOpenMessage.encodeBody, toBeBytes16, Ipv4Address.octets, List.cons_append,
    List.nil_append, Checked.index_cons_zero, Checked.index_cons_succ, Checked.ok_bind, has, hhold]

theorem parseBody_open {o : BgpOpenMessage} (h : o.optParams.length ≤ 255) :
    BgpOpenMessage.parseBody o.encodeBody = .ok o := by
  rw [parseBody_encodeBody, Nat.mod_eq_of_lt (by omega), List.take_length]

theorem parseBody_routeRefresh {r : BgpRouteRefreshMessage}
    (h : BgpRouteRefreshSubtype.fromCode r.subtype.code = r.subtype) :
    BgpRouteRefreshMessage.parseBody r.encodeBody = .ok r := by
  have hafi := ofNat_beWord r.family.afi
  rw [BgpRouteRefreshMessage.parseBody,
    if_neg (by simp [BgpRouteRefreshMessage.encodeBody, toBeBytes16])]
  simp only [BgpRouteRefreshMessage.encodeBody, toBeBytes16, List.cons_append, List.nil_append,
    Checked.bind_def, Checked.index_cons_zero, Checked.index_cons_succ, Checked.ok_bind, hafi, h]

/-- The smallest bodies the header check asks for. -/
theorem minMessageLen_body (m : BgpPdu) :
    ∃ n, minMessageLen m.typeCode = .ok n ∧ n ≤ bgpHeaderLen + m.body.length := by
  cases m with
  | «open» o =>
    exact ⟨_, rfl, by
      simp [BgpPdu.body, BgpOpenMessage.encodeBody, toBeBytes16, Ipv4Address.octets]⟩
  | update u =>
    exact ⟨_, rfl, by simp [BgpPdu.body, BgpUpdateMessage.encodeBody, toBeBytes16]; omega⟩
  | notification n => exact ⟨_, rfl, by simp [BgpPdu.body]⟩
  | keepalive => exact ⟨_, rfl, by simp⟩
  | routeRefresh r => exact ⟨_, rfl, by simp⟩

theorem length_serialize (m : BgpPdu) : m.serialize.length = bgpHeaderLen + m.body.length := by
  simp [BgpPdu.serialize, bgpMarker, toBeBytes16, bgpHeaderLen]
  omega

theorem parseBgpHeader_serialize {m : BgpPdu} (hlen : m.serialize.length ≤ bgpMaxMessageLen) :
    parseBgpHeader m.serialize = .ok (m.typeCode, m.body) := by
  have htotal := length_serialize m
  obtain ⟨minLen, hmin, hle⟩ := minMessageLen_body m
  have hmarker : (slice m.serialize 0 16 : Parsed (List UInt8)) = .ok bgpMarker := by
    rw [Checked.slice_eq_ok (by omega) (by rw [htotal]; simp [bgpHeaderLen]; omega)]
    rfl
  have h₁₆ : (index m.serialize 16 : Parsed UInt8) =
      .ok (UInt8.ofNat ((bgpHeaderLen + m.body.length) / 256)) := rfl
  have h₁₇ : (index m.serialize 17 : Parsed UInt8) =
      .ok (UInt8.ofNat (bgpHeaderLen + m.body.length)) := rfl
  have h₁₈ : (index m.serialize 18 : Parsed UInt8) = .ok m.typeCode := rfl
  have hword : beWord (UInt8.ofNat ((bgpHeaderLen + m.body.length) / 256))
      (UInt8.ofNat (bgpHeaderLen + m.body.length)) = bgpHeaderLen + m.body.length := by
    apply beWord_toBeBytes16
    rw [htotal, bgpMaxMessageLen] at hlen
    omega
  have hbody : (slice m.serialize bgpHeaderLen (bgpHeaderLen + m.body.length) : Parsed
      (List UInt8)) =
      .ok m.body := by
    rw [Checked.slice_eq_ok (by omega) (by omega), ← htotal, List.take_length]
    rfl
  rw [parseBgpHeader, if_neg (by omega)]
  simp only [Checked.bind_def, hmarker, Checked.ok_bind, ne_eq, not_true_eq_false,
    if_false, h₁₆, h₁₇, h₁₈, hword, hmin]
  rw [if_neg (by omega), if_neg (by omega), if_neg (by omega), hbody, Checked.ok_bind]

theorem parseWidth_serialize {m : BgpPdu} (hv : m.Valid) (hw : m.WrittenFor w)
    (hlen : m.serialize.length ≤ bgpMaxMessageLen) :
    BgpPdu.parseWidth m.serialize w = .ok m.canonical := by
  have hbody : m.body.length ≤ 4096 := by
    rw [length_serialize, bgpMaxMessageLen] at hlen
    omega
  simp only [BgpPdu.parseWidth, Checked.bind_def, parseBgpHeader_serialize hlen, Checked.ok_bind]
  cases m with
  | «open» o => exact Checked.bind_of_eq_ok _ (parseBody_open hv)
  | update u => exact Checked.bind_of_eq_ok _ (parseBodyWidth_encodeBody hv hw hbody)
  | notification n =>
    have hslice : (slice (n.errorCode :: n.errorSubcode :: n.data)
        2 (n.errorCode :: n.errorSubcode :: n.data).length : Parsed (List UInt8)) = .ok n.data := by
      rw [Checked.slice_eq_ok (by simp) le_rfl, List.take_length]
      rfl
    calc
      _ = (if (n.errorCode :: n.errorSubcode :: n.data).length < 2 then
            Checked.error (.header bgpSubBadMessageLength
              "NOTIFICATION shorter than its two-byte error code")
          else
            (slice (n.errorCode :: n.errorSubcode :: n.data) 2
              (n.errorCode :: n.errorSubcode :: n.data).length).bind fun data =>
              Checked.ok (BgpPdu.notification ⟨n.errorCode, n.errorSubcode, data⟩) :
          Parsed BgpPdu) := rfl
      _ = _ := by
        rw [if_neg (by simp), hslice]
        rfl
  | keepalive => rfl
  | routeRefresh r => exact Checked.bind_of_eq_ok _ (parseBody_routeRefresh hv)

/-- A header that is accepted states the length of the whole frame. -/
theorem length_of_parseBgpHeader {frame body : List UInt8} {msgType : UInt8}
    (h : parseBgpHeader frame = .ok (msgType, body)) :
    frame.length = wordAt frame 16 ∧ bgpHeaderLen ≤ frame.length ∧
    frame.length ≤ bgpMaxMessageLen := by
  simp only [parseBgpHeader, Checked.bind_def, Checked.ite_error_eq_ok, Checked.bind_eq_ok] at h
  obtain ⟨-, marker, -, -, hi, hhi, lo, hlo, msgType, -, hrange, minLen, -, -, hexact, -⟩ := h
  have hhi : byteAt frame 16 = hi := by
    rw [byteAt, List.getD_eq_getElem?_getD, Checked.index_eq_ok.mp hhi]
    rfl
  have hlo : byteAt frame 17 = lo := by
    rw [byteAt, List.getD_eq_getElem?_getD, Checked.index_eq_ok.mp hlo]
    rfl
  have hword : wordAt frame 16 = beWord hi lo := by rw [wordAt, hhi, hlo]
  rw [hword]
  push Not at hrange hexact
  exact ⟨hexact, hexact ▸ hrange.1, hexact ▸ hrange.2⟩

/-- The message as it is, its prefixes masked and the width of the session forgotten. -/
def BgpPdu.masked : BgpPdu → BgpPdu
  | .update u => .update
    { withdrawn := u.withdrawn.map Ipv4Prefix.masked
      attributes := u.attributes.map fun a => { a with fourOctetAs := false }
      nlri := u.nlri.map Ipv4Prefix.masked }
  | m => m

/-- Nothing in the message is without a place on the wire: its attributes describe something, a pure
multiprotocol withdrawal has no others, a next hop comes with IPv4 NLRI, and the AS_PATH survives
its encoding. -/
def BgpPdu.Carried : BgpPdu → Prop
  | .update u => ∀ a ∈ u.attributes, u.describes a = true ∧
      (∀ mp ∈ a.mpUnreach, a.isMpWithdrawOnly (!u.nlri.isEmpty) = true →
        a = { BgpPathAttributes.mpWithdraw mp with fourOctetAs := a.fourOctetAs }) ∧
      (u.nlri = [] → a.nextHop = .unspecified) ∧ a.asPath.received a.fourOctetAs = a.asPath
  | _ => True

theorem canonical_eq_masked {m : BgpPdu} (h : m.Carried) : m.canonical = m.masked := by
  cases m with
  | update u =>
    obtain ⟨withdrawn, attributes, nlri⟩ := u
    cases attributes with
    | none => rfl
    | some a =>
      obtain ⟨hd, honly, hnext, hpath⟩ := h a rfl
      have hattr : a.canonical (!nlri.isEmpty) = { a with fourOctetAs := false } := by
        unfold BgpPathAttributes.canonical
        split
        · rename_i mp hmp hw
          rw [honly mp hmp hw]
          rfl
        · rw [hpath]
          cases nlri with
          | nil => simp [← hnext rfl]
          | cons p rest => simp
      simp only [BgpPdu.canonical, BgpPdu.masked, BgpUpdateMessage.canonical, hd, if_true, hattr,
        Option.map_some]
  | _ => rfl

/-- Whatever the bytes, decoding reads inside them; a frame that is accepted is as long as its
header states; and a message of at most 4096 bytes is read back, prefixes masked, as far as the wire
carries it. -/
theorem bgp_codec_roundtrip (frame : List UInt8) (w : Bool) :
    BgpPdu.parseWidth frame w ≠ .panic ∧
    (∀ m, BgpPdu.parseWidth frame w = .ok m → frame.length = wordAt frame 16 ∧
      bgpHeaderLen ≤ frame.length ∧ frame.length ≤ bgpMaxMessageLen) ∧
    ∀ m : BgpPdu, m.Valid → m.WrittenFor w → m.serialize = frame → frame.length ≤ bgpMaxMessageLen →
      BgpPdu.parseWidth frame w = .ok m.canonical ∧ (m.Carried → m.canonical = m.masked) := by
  refine ⟨safe_parseWidth frame w, fun m h => ?_, fun m hv hw hframe hlen => ?_⟩
  · simp only [BgpPdu.parseWidth, Checked.bind_def] at h
    obtain ⟨⟨msgType, body⟩, hheader, -⟩ := Checked.bind_eq_ok.mp h
    exact length_of_parseBgpHeader hheader
  · subst hframe
    exact ⟨parseWidth_serialize hv hw hlen, canonical_eq_masked⟩

/-- Two prefixes announced on a two-octet session, one with bits below its length. -/
def sampleAnnouncement : BgpPdu :=
  .update
    { withdrawn := [⟨⟨10, 9, 0, 0⟩, 16⟩]
      attributes := some
        { BgpPathAttributes.new .igp (.sequence [65001, 65002]) ⟨10, 0, 0, 1⟩ with med := some 20 }
      nlri := [⟨⟨10, 30, 0, 7⟩, 24⟩, ⟨⟨10, 31, 0, 0⟩, 20⟩] }

theorem bgp_codec_roundtrip_sample :
    BgpPdu.parseWidth sampleAnnouncement.serialize false = .ok sampleAnnouncement.masked := by
  have hv : sampleAnnouncement.Valid :=
    ⟨by decide, by decide, fun a ha => by
      obtain rfl := Option.mem_some_iff.mp ha
      exact ⟨by decide, by simp [BgpPathAttributes.new]⟩, by simp⟩
  have hw : sampleAnnouncement.WrittenFor false := fun a ha => by
    obtain rfl := Option.mem_some_iff.mp ha
    rfl
  have hc : sampleAnnouncement.Carried := fun a ha => by
    obtain rfl := Option.mem_some_iff.mp ha
    exact ⟨by decide, by simp [BgpPathAttributes.new], by simp, by decide +kernel⟩
  obtain ⟨hparse, hmasked⟩ := (bgp_codec_roundtrip sampleAnnouncement.serialize false).2.2
    sampleAnnouncement hv hw rfl (by decide +kernel)
  rw [hparse, hmasked hc]

/-- An IPv6 announcement on a four-octet session that has an IPv4 next hop beside its own. -/
def sampleMpAnnouncement : BgpPdu :=
  .update
    { withdrawn := []
      attributes := some
        { BgpPathAttributes.new .igp (.sequence [65001]) ⟨10, 0, 0, 1⟩ with
          mpReach := some ⟨2, 1, List.replicate 16 1, [32, 0x20, 0x01, 0x0d, 0xb8]⟩
          fourOctetAs := true }
      nlri := [] }

/-- The IPv4 next hop has no place in it and the width is not on the wire, so the value read back is
another one. -/
theorem mp_announcement_not_read_back :
    sampleMpAnnouncement.Valid ∧ sampleMpAnnouncement.WrittenFor true ∧
    sampleMpAnnouncement.serialize.length ≤ bgpMaxMessageLen ∧
    BgpPdu.parseWidth sampleMpAnnouncement.serialize true = .ok sampleMpAnnouncement.canonical ∧
    sampleMpAnnouncement.canonical ≠ sampleMpAnnouncement ∧
    sampleMpAnnouncement.canonical ≠ sampleMpAnnouncement.masked := by
  refine ⟨⟨by simp, by simp, fun a ha => ?_, by simp⟩, fun a ha => ?_, by decide +kernel,
    by decide +kernel, by decide +kernel, by decide +kernel⟩
  · obtain rfl := Option.mem_some_iff.mp ha
    exact ⟨by decide, by simp⟩
  · obtain rfl := Option.mem_some_iff.mp ha
    rfl

end messages

end ToyTcpip.Bgp
