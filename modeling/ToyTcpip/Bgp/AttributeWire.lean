import ToyTcpip.Bgp.Parse

/-! AS paths on the wire: what the decoder gives back for an encoded path, at either AS width. -/
namespace ToyTcpip.Bgp

open Checked (index slice index_append_right)

variable {w : Bool} {p : AsPath}

theorem beLong_toBeBytes32 (n : UInt32) :
    beLong (UInt8.ofNat (n.toNat / 2 ^ 24)) (UInt8.ofNat (n.toNat / 2 ^ 16))
      (UInt8.ofNat (n.toNat / 2 ^ 8)) (UInt8.ofNat n.toNat) = n := by
  have hlt := n.toNat_lt
  apply UInt32.toNat_inj.mp
  simp only [beLong, UInt8.toNat_ofNat', UInt32.toNat_ofNat']
  omega

theorem narrowAsn_lt (asn : UInt32) : (narrowAsn asn).toNat < 65536 := by
  unfold narrowAsn
  split
  · omega
  · decide

/-- The AS number a receiver reads at a width. -/
def wireAsn (w : Bool) (asn : UInt32) : UInt32 := if w then asn else narrowAsn asn

theorem ofNat_beWord_narrowAsn (asn : UInt32) :
    UInt32.ofNat (beWord (UInt8.ofNat ((narrowAsn asn).toNat / 256))
      (UInt8.ofNat (narrowAsn asn).toNat)) = narrowAsn asn := by
  rw [beWord_toBeBytes16 (narrowAsn_lt asn), UInt32.ofNat_toNat]

theorem length_flatMap_encodeAsn (w : Bool) (asns : List UInt32) :
    (asns.flatMap (encodeAsn w)).length = asns.length * asnWidth w := by
  induction asns with
  | nil => simp
  | cons asn rest ih =>
    rw [List.flatMap_cons, List.length_append, ih]
    cases w <;> simp [encodeAsn, asnWidth, toBeBytes32, toBeBytes16] <;> omega

/-- The numbers of a segment are read back from where they were written. -/
theorem decodeAsns_encodeAsn (pre post : List UInt8) (asns : List UInt32) :
    decodeAsns w (pre ++ (asns.flatMap (encodeAsn w) ++ post)) asns.length pre.length =
      .ok (asns.map (wireAsn w)) := by
  induction asns generalizing pre with
  | nil => rfl
  | cons asn rest ih =>
    have hdata : pre ++ ((asn :: rest).flatMap (encodeAsn w) ++ post) =
        (pre ++ encodeAsn w asn) ++ (rest.flatMap (encodeAsn w) ++ post) := by simp
    have hlen : (pre ++ encodeAsn w asn).length = pre.length + asnWidth w := by
      cases w <;> simp [encodeAsn, asnWidth, toBeBytes32, toBeBytes16]
    have ih := ih (pre ++ encodeAsn w asn)
    rw [← hdata, hlen] at ih
    have hread : ∀ i, (index (pre ++ ((asn :: rest).flatMap (encodeAsn w) ++ post))
        (pre.length + i) : Parsed UInt8) =
        index (encodeAsn w asn ++ (rest.flatMap (encodeAsn w) ++ post)) i := by
      intro i
      rw [index_append_right, List.flatMap_cons, List.append_assoc]
    have hread₀ := hread 0
    rw [Nat.add_zero] at hread₀
    cases w with
    | false =>
      simp only [asnWidth, Bool.false_eq_true, if_false] at ih
      simp only [List.length_cons, decodeAsns, Bool.false_eq_true, if_false, Checked.bind_def,
        hread₀, hread, ih]
      simpa [encodeAsn, toBeBytes16, wireAsn] using ofNat_beWord_narrowAsn asn
    | true =>
      simp only [asnWidth, if_true] at ih
      simp only [List.length_cons, decodeAsns, if_true, Checked.bind_def, hread₀, hread, ih]
      simpa [encodeAsn, toBeBytes32, wireAsn] using beLong_toBeBytes32 asn

/-! ### Segments -/

def encodeSegment (w : Bool) (seg : AsPathSegment) : List UInt8 :=
  [seg.kind.code, UInt8.ofNat seg.asns.length] ++ seg.asns.flatMap (encodeAsn w)

/-- The segments the encoder writes: each cut at 255 AS numbers, empty ones left out. -/
def AsPath.pieces (p : AsPath) : List AsPathSegment :=
  p.segments.flatMap fun seg =>
    (Chunks.chunks asPathMaxSegmentAsns seg.asns).map fun chunk => ⟨seg.kind, chunk⟩

theorem encodeWidth_eq (p : AsPath) (w : Bool) :
    p.encodeWidth w = p.pieces.flatMap (encodeSegment w) := by
  simp [AsPath.encodeWidth, AsPath.pieces, encodeSegment, List.flatMap_assoc, List.flatMap_map]

theorem mem_pieces {seg : AsPathSegment} (h : seg ∈ p.pieces) :
    ∃ s ∈ p.segments, seg.kind = s.kind ∧ seg.asns ∈ Chunks.chunks asPathMaxSegmentAsns s.asns := by
  simp only [AsPath.pieces, List.mem_flatMap, List.mem_map] at h
  obtain ⟨s, hs, chunk, hchunk, rfl⟩ := h
  exact ⟨s, hs, rfl, hchunk⟩

theorem pieces_length {seg : AsPathSegment} (h : seg ∈ p.pieces) :
    0 < seg.asns.length ∧ seg.asns.length ≤ 255 := by
  obtain ⟨s, -, -, hchunk⟩ := mem_pieces h
  exact ⟨List.length_pos_of_ne_nil (Chunks.ne_nil_of_mem_chunks hchunk),
    Chunks.length_le_of_mem_chunks (by decide) hchunk⟩

def wireSegment (w : Bool) (seg : AsPathSegment) : AsPathSegment :=
  ⟨seg.kind, seg.asns.map (wireAsn w)⟩

theorem decode_code (kind : AsPathSegmentKind) : AsPathSegmentKind.decode kind.code = .ok kind := by
  cases kind <;> rfl

theorem decodeSegments_encodeSegment {seg : AsPathSegment} (rest : List UInt8)
    (hpos : 0 < seg.asns.length) (hle : seg.asns.length ≤ 255) :
    decodeSegments w (encodeSegment w seg ++ rest) =
      (decodeSegments w rest).bind fun segments => .ok (wireSegment w seg :: segments) := by
  have hcount : (UInt8.ofNat seg.asns.length).toNat = seg.asns.length := by
    simp
    omega
  have hdata : encodeSegment w seg ++ rest = seg.kind.code :: UInt8.ofNat seg.asns.length ::
      (seg.asns.flatMap (encodeAsn w) ++ rest) := by simp [encodeSegment]
  have hasns := decodeAsns_encodeAsn (w := w) [seg.kind.code,
    UInt8.ofNat seg.asns.length] rest seg.asns
  have hlen := length_flatMap_encodeAsn w seg.asns
  rw [hdata, decodeSegments, if_neg (by simp)]
  simp only [decode_code, Checked.ok_bind, Checked.index_cons_succ, Checked.index_cons_zero, hcount]
  have hfits : ¬ 2 + seg.asns.length * asnWidth w > (seg.kind.code :: UInt8.ofNat seg.asns.length ::
      (seg.asns.flatMap (encodeAsn w) ++ rest)).length := by
    simp only [List.length_cons, List.length_append, hlen]
    omega
  rw [if_neg (by omega), if_neg hfits]
  simp only [List.cons_append, List.nil_append, List.length_cons, List.length_nil] at hasns
  rw [hasns, Checked.ok_bind]
  have hdrop : (UInt8.ofNat seg.asns.length :: (seg.asns.flatMap (encodeAsn w) ++ rest)).drop
      (2 + seg.asns.length * asnWidth w - 1) = rest := by
    rw [← hlen, show 2 + (seg.asns.flatMap (encodeAsn w)).length - 1 =
      (seg.asns.flatMap (encodeAsn w)).length + 1 by omega, List.drop_succ_cons, List.drop_left]
  rw [hdrop]
  rfl

theorem decodeSegments_flatMap {segs : List AsPathSegment}
    (h : ∀ seg ∈ segs, 0 < seg.asns.length ∧ seg.asns.length ≤ 255) :
    decodeSegments w (segs.flatMap (encodeSegment w)) = .ok (segs.map (wireSegment w)) := by
  induction segs with
  | nil =>
    rw [List.flatMap_nil, decodeSegments]
    rfl
  | cons seg rest ih =>
    obtain ⟨hpos, hle⟩ := h seg List.mem_cons_self
    rw [List.flatMap_cons, decodeSegments_encodeSegment _ hpos hle,
      ih fun s hs => h s (List.mem_cons_of_mem _ hs)]
    rfl

/-- The path a receiver at width `w` reads from the AS_PATH attribute alone. -/
def AsPath.onWire (p : AsPath) (w : Bool) : AsPath := ⟨p.pieces.map (wireSegment w)⟩

theorem decodeWidth_encodeWidth (p : AsPath) (w : Bool) :
    AsPath.decodeWidth (p.encodeWidth w) w = .ok (p.onWire w) := by
  rw [encodeWidth_eq, AsPath.decodeWidth, decodeSegments_flatMap fun seg => pieces_length]
  rfl

end ToyTcpip.Bgp

/-! ### Prefix lists and path attributes are read back as they were written. -/
namespace ToyTcpip.Bgp

open Checked (index slice)

/-! ### Prefix lists -/

/-- The octets a prefix travels with hold all the bits its mask keeps. -/
theorem mask_addressOf_take (ip : Ipv4Address) {len : ℕ} (h : len ≤ 32) :
    (addressOf (ip.octets.take ((len + 7) / 8))).mask len = ip.mask len := by
  unfold Ipv4Address.mask
  split
  · rfl
  · split
    · obtain rfl : len = 32 := by omega
      rfl
    · congr 1
      rw [netmaskOf_eq h]
      obtain ⟨a, b, c, d⟩ := ip
      have hk : (len + 7) / 8 = 1 ∨ (len + 7) / 8 = 2 ∨ (len + 7) / 8 = 3 ∨ (len + 7) / 8 = 4 := by
        omega
      rcases hk with hk | hk | hk | hk
      case inr.inr.inr =>
        rw [hk]
        rfl
      all_goals
        rw [hk]
        ext i hi
        simp only [addressOf, addressAt, byteAt, Ipv4Address.octets, List.take, Ipv4Address.toU32,
          BitVec.getElem_and, BitVec.getElem_shiftLeft, List.getD_cons_zero, List.getD_cons_succ,
          List.getD_nil, BitVec.getElem_append]
        grind

/-- A prefix with the bits below its length cleared. -/
def Ipv4Prefix.masked (p : Ipv4Prefix) : Ipv4Prefix := .new p.address p.length

theorem new_addressOf_take {p : Ipv4Prefix} (h : p.length ≤ 32) :
    Ipv4Prefix.new (addressOf (p.address.octets.take (octetsFor p.length))) p.length =
      p.masked := by
  have hmin : min p.length 32 = p.length := if_pos h
  have hle : p.length.toNat ≤ 32 := UInt8.le_iff_toNat_le.mp h
  simp only [Ipv4Prefix.new, Ipv4Prefix.masked, hmin, octetsFor, mask_addressOf_take _ hle]

theorem decodeList_encode (subcode : UInt8) {ps : List Ipv4Prefix} (h : ∀ p ∈ ps, p.length ≤ 32) :
    Ipv4Prefix.decodeList subcode (ps.flatMap Ipv4Prefix.encode) =
      .ok (ps.map Ipv4Prefix.masked) := by
  induction ps with
  | nil =>
    rw [List.flatMap_nil, Ipv4Prefix.decodeList]
    rfl
  | cons p rest ih =>
    have hp : p.length ≤ 32 := h p List.mem_cons_self
    have hle : p.length.toNat ≤ 32 := UInt8.le_iff_toNat_le.mp hp
    have htake : (p.address.octets.take (octetsFor p.length)).length = octetsFor p.length := by
      simp [Ipv4Address.octets, octetsFor]
      omega
    rw [List.flatMap_cons, Ipv4Prefix.encode, List.cons_append, Ipv4Prefix.decodeList,
      if_neg (UInt8.not_lt.mpr hp)]
    have hslice := Checked.slice_middle (ε := BgpParseError) [p.length]
      (p.address.octets.take (octetsFor p.length)) (rest.flatMap Ipv4Prefix.encode)
    rw [htake] at hslice
    have hdrop : (p.address.octets.take (octetsFor p.length) ++ rest.flatMap Ipv4Prefix.encode).drop
        (octetsFor p.length) = rest.flatMap Ipv4Prefix.encode := by
      rw [List.drop_left' htake]
    simp only [List.length_cons, List.length_append, htake, hdrop,
      ih fun q hq => h q (List.mem_cons_of_mem _ hq)]
    simp only [List.singleton_append, List.length_singleton] at hslice
    rw [if_neg (by omega), hslice]
    simp [new_addressOf_take hp]

/-! ### Attributes -/

section attributes

variable {w : Bool} {flags typeCode : UInt8} {value rest seen : List UInt8}
  {parsed : ParsedAttributes}

theorem or_and_byte (x y z : UInt8) : (x ||| y) &&& z = (x &&& z) ||| (y &&& z) :=
  UInt8.toBitVec_inj.mp BitVec.and_or_distrib_right

/-- Only the optional and the transitive bit of the flags are looked at. -/
theorem parseAttributeValue_extLen :
    parseAttributeValue w (flags ||| bgpAttrFlagExtLen) typeCode value parsed =
      parseAttributeValue w flags typeCode value parsed := by
  have hoptional : optional (flags ||| bgpAttrFlagExtLen) = optional flags := by
    rw [optional, or_and_byte, show bgpAttrFlagExtLen &&& bgpAttrFlagOptional = 0 by decide,
      UInt8.or_zero, optional]
  have htransitive : transitive (flags ||| bgpAttrFlagExtLen) = transitive flags := by
    rw [transitive, or_and_byte, show bgpAttrFlagExtLen &&& bgpAttrFlagTransitive = 0 by decide,
      UInt8.or_zero, transitive]
  simp only [parseAttributeValue, parseOrigin, parseAsPath, parseAs4Path, parseNextHop,
    parseOriginatorId, parseClusterList, parseMpReach, parseMpUnreach, hoptional, htransitive]

theorem length_le_pushAttribute (flags typeCode : UInt8) (value : List UInt8) :
    value.length ≤ (pushAttribute flags typeCode value).length := by
  unfold pushAttribute
  split <;> simp <;> omega

/-- An attribute whose header reads as such is handed on by its type, and the loop goes on behind
it. -/
theorem parseAttributesFrom_framed {head : List UInt8}
    (hhead : ∀ rest, attributeHeader (head ++ rest) =
      .ok ⟨flags, typeCode, value.length, head.length⟩) :
    parseAttributesFrom w (head ++ (value ++ rest)) seen parsed =
      if seen.contains typeCode then
        .error (.update bgpSubMalformedAttributeList s!"duplicate path attribute {typeCode}")
      else
        (parseAttributeValue w flags typeCode value parsed).bind fun parsed =>
          parseAttributesFrom w rest (seen ++ [typeCode]) parsed := by
  have hpos : 0 < head.length := by
    cases head with
    | nil =>
      have hnil := hhead []
      simp [attributeHeader] at hnil
    | cons => simp
  obtain ⟨b, tail, hdata⟩ : ∃ b tail, head ++ (value ++ rest) = b :: tail :=
    List.exists_cons_of_ne_nil (by simp [List.ne_nil_of_length_pos hpos])
  have hdrop : tail.drop (head.length + value.length - 1) = rest := by
    have : (b :: tail).drop (head.length + value.length) = rest := by
      rw [← hdata, ← List.append_assoc, List.drop_left' (by simp)]
    rwa [show head.length + value.length = (head.length + value.length - 1) + 1 by omega,
      List.drop_succ_cons] at this
  have hfits : ¬ head.length + value.length > (b :: tail).length := by
    rw [← hdata]
    simp
  have hheader := hhead (value ++ rest)
  rw [hdata] at hheader
  rw [hdata, parseAttributesFrom, hheader]
  simp only [Checked.ok_bind, hdrop, if_neg hfits]
  rw [← hdata, Checked.slice_middle, Checked.ok_bind]

/-- One attribute of the block is read back and the loop goes on behind it. -/
theorem parseAttributesFrom_pushAttribute (hflags : flags &&& bgpAttrFlagExtLen = 0)
    (hlen : value.length < 65536) (hseen : typeCode ∉ seen) :
    parseAttributesFrom w (pushAttribute flags typeCode value ++ rest) seen parsed =
      (parseAttributeValue w flags typeCode value parsed).bind fun parsed =>
        parseAttributesFrom w rest (seen ++ [typeCode]) parsed := by
  obtain ⟨flags', head, hpush, hhead, hparse⟩ : ∃ flags' head,
      pushAttribute flags typeCode value = head ++ value ∧
      (∀ rest, attributeHeader (head ++ rest) =
        .ok ⟨flags', typeCode, value.length, head.length⟩) ∧
      parseAttributeValue w flags' typeCode value parsed =
        parseAttributeValue w flags typeCode value parsed := by
    unfold pushAttribute
    split
    · have hext : (flags ||| bgpAttrFlagExtLen) &&& bgpAttrFlagExtLen ≠ 0 := by
        rw [or_and_byte, hflags]
        decide
      refine ⟨_, [flags ||| bgpAttrFlagExtLen, typeCode] ++ toBeBytes16 value.length, by simp,
        fun rest => ?_, parseAttributeValue_extLen⟩
      simp [attributeHeader, toBeBytes16, hext, beWord_toBeBytes16 hlen]
    · rename_i hshort
      have hcount : value.length % 256 = value.length := by omega
      refine ⟨_, [flags, typeCode, UInt8.ofNat value.length], by simp, fun rest => ?_, rfl⟩
      simp [attributeHeader, hflags, hcount]
  rw [hpush, List.append_assoc, parseAttributesFrom_framed hhead, if_neg (by simpa using hseen),
    hparse]

/-- A place of the attribute block, with the value that goes there if there is one. -/
structure AttributeSlot where
  flags : UInt8
  typeCode : UInt8
  value : Option (List UInt8)

def AttributeSlot.encode (s : AttributeSlot) : List UInt8 :=
  match s.value with
  | some value => pushAttribute s.flags s.typeCode value
  | none => []

def AttributeSlot.read (w : Bool) (s : AttributeSlot) (parsed : ParsedAttributes) :
    Parsed ParsedAttributes :=
  match s.value with
  | some value => parseAttributeValue w s.flags s.typeCode value parsed
  | none => .ok parsed

def readSlots (w : Bool) : List AttributeSlot → ParsedAttributes → Parsed ParsedAttributes
  | [], parsed => .ok parsed
  | s :: rest, parsed => (s.read w parsed).bind (readSlots w rest)

/-- A block of distinct attributes is read back one attribute after the other. -/
theorem parseAttributesFrom_slots {slots : List AttributeSlot}
    (hflags : ∀ s ∈ slots, s.flags &&& bgpAttrFlagExtLen = 0)
    (hlen : (slots.flatMap AttributeSlot.encode).length < 65536)
    (hcodes : (slots.map AttributeSlot.typeCode).Nodup)
    (hseen : ∀ s ∈ slots, s.typeCode ∉ seen) :
    parseAttributesFrom w (slots.flatMap AttributeSlot.encode) seen parsed =
      readSlots w slots parsed := by
  induction slots generalizing seen parsed with
  | nil => rw [List.flatMap_nil, parseAttributesFrom, readSlots]
  | cons s rest ih =>
    obtain ⟨flags, typeCode, value⟩ := s
    obtain ⟨hnot, hrest⟩ := List.nodup_cons.mp hcodes
    have hflags' : ∀ s ∈ rest, s.flags &&& bgpAttrFlagExtLen = 0 :=
      fun s hs => hflags s (List.mem_cons_of_mem _ hs)
    have hlen' : (rest.flatMap AttributeSlot.encode).length < 65536 := by
      rw [List.flatMap_cons, List.length_append] at hlen
      omega
    cases value with
    | none =>
      rw [List.flatMap_cons]
      simp only [AttributeSlot.encode, List.nil_append, readSlots, AttributeSlot.read,
        Checked.ok_bind]
      exact ih hflags' hlen' hrest fun s hs => hseen s (List.mem_cons_of_mem _ hs)
    | some value =>
      have hvalue : value.length < 65536 := by
        have hle := length_le_pushAttribute flags typeCode value
        rw [List.flatMap_cons, List.length_append] at hlen
        simp only [AttributeSlot.encode] at hlen
        omega
      rw [List.flatMap_cons]
      simp only [AttributeSlot.encode, readSlots, AttributeSlot.read]
      rw [parseAttributesFrom_pushAttribute (hflags _ List.mem_cons_self) hvalue
        (hseen _ List.mem_cons_self)]
      congr 1
      funext parsed'
      apply ih hflags' hlen' hrest
      intro s hs
      have hold := hseen s (List.mem_cons_of_mem _ hs)
      have hnew : s.typeCode ≠ typeCode := fun heq => hnot (List.mem_map.mpr ⟨s, hs, heq⟩)
      simp [hold, hnew]

end attributes

/-! ### What the encoder writes, slot by slot -/

section slots

variable {w : Bool} {parsed : ParsedAttributes}

def BgpPathAttributes.slots (a : BgpPathAttributes) (hasIpv4Nlri : Bool) : List AttributeSlot :=
  [⟨bgpAttrFlagTransitive, bgpAttrOrigin, some [a.origin.toU8]⟩,
   ⟨bgpAttrFlagTransitive, bgpAttrAsPath, some (a.asPath.encodeWidth a.fourOctetAs)⟩,
   ⟨bgpAttrFlagOptional ||| bgpAttrFlagTransitive, bgpAttrAs4Path,
     if !a.fourOctetAs && a.asPath.needsFourOctets then some (a.asPath.encodeWidth true) else none⟩,
   ⟨bgpAttrFlagTransitive, bgpAttrNextHop, if hasIpv4Nlri then some a.nextHop.octets else none⟩,
   ⟨bgpAttrFlagOptional, bgpAttrMed, a.med.map fun med => toBeBytes32 med.toNat⟩,
   ⟨bgpAttrFlagTransitive, bgpAttrLocalPref, a.localPref.map fun lp => toBeBytes32 lp.toNat⟩,
   ⟨bgpAttrFlagTransitive, bgpAttrAtomicAggregate, if a.atomicAggregate then some [] else none⟩,
   ⟨bgpAttrFlagOptional, bgpAttrOriginatorId, a.originatorId.map Ipv4Address.octets⟩,
   ⟨bgpAttrFlagOptional, bgpAttrClusterList,
     if a.clusterList.isEmpty then none else some (a.clusterList.flatMap Ipv4Address.octets)⟩,
   ⟨bgpAttrFlagOptional ||| bgpAttrFlagTransitive, bgpAttrExtCommunities,
     if a.extCommunities.isEmpty then none else some (a.extCommunities.flatMap Vector.toList)⟩,
   ⟨bgpAttrFlagOptional, bgpAttrMpReachNlri, a.mpReach.map MpReachNlri.encodeValue⟩,
   ⟨bgpAttrFlagOptional, bgpAttrMpUnreachNlri, a.mpUnreach.map MpUnreachNlri.encodeValue⟩]

theorem encodeFor_eq_slots {a : BgpPathAttributes} {hasIpv4Nlri : Bool}
    (h : a.isMpWithdrawOnly hasIpv4Nlri = false) :
    a.encodeFor hasIpv4Nlri = (a.slots hasIpv4Nlri).flatMap AttributeSlot.encode := by
  simp only [BgpPathAttributes.encodeFor, h, Bool.false_eq_true, if_false, BgpPathAttributes.slots,
    List.flatMap_cons, List.flatMap_nil, AttributeSlot.encode, List.append_nil, List.append_assoc]
  congr 1
  congr 1
  congr 1
  · split <;> rfl
  congr 1
  · split <;> rfl
  congr 1
  · cases a.med <;> rfl
  congr 1
  · cases a.localPref <;> rfl
  congr 1
  · split <;> rfl
  congr 1
  · cases a.originatorId <;> rfl
  congr 1
  · split <;> rfl
  congr 1
  · split <;> rfl
  congr 1
  · cases a.mpReach <;> rfl
  · cases a.mpUnreach <;> rfl

theorem communitiesOf_flatMap (comms : List (Vector UInt8 8)) :
    communitiesOf (comms.flatMap Vector.toList) = comms := by
  induction comms with
  | nil => rfl
  | cons comm rest ih =>
    obtain ⟨a, b, c, d, e, f, g, h, hcomm⟩ : ∃ a b c d e f g h, comm =
        #v[a, b, c, d, e, f, g, h] := by
      refine ⟨comm[0], comm[1], comm[2], comm[3], comm[4], comm[5], comm[6], comm[7], ?_⟩
      ext i hi
      match i, hi with
      | 0, _ | 1, _ | 2, _ | 3, _ | 4, _ | 5, _ | 6, _ | 7, _ => rfl
    subst hcomm
    change communitiesOf (a :: b :: c :: d :: e :: f :: g :: h :: rest.flatMap Vector.toList) = _
    rw [communitiesOf, ih]

theorem addressesOf_flatMap (ids : List Ipv4Address) :
    addressesOf (ids.flatMap Ipv4Address.octets) = ids := by
  induction ids with
  | nil => rfl
  | cons id rest ih =>
    rw [List.flatMap_cons]
    simp only [Ipv4Address.octets, List.cons_append, List.nil_append, addressesOf, ih]

theorem length_flatMap_octets (ids : List Ipv4Address) :
    (ids.flatMap Ipv4Address.octets).length = 4 * ids.length := by
  induction ids with
  | nil => rfl
  | cons id rest ih =>
    rw [List.flatMap_cons, List.length_append, ih]
    simp [Ipv4Address.octets]
    omega

theorem length_flatMap_communities (comms : List (Vector UInt8 8)) :
    (comms.flatMap Vector.toList).length = 8 * comms.length := by
  induction comms with
  | nil => rfl
  | cons comm rest ih =>
    rw [List.flatMap_cons, List.length_append, ih]
    simp
    omega

theorem readLong_toBeBytes32 (n : UInt32) : readLong (toBeBytes32 n.toNat) = .ok n := by
  have hvalue := beLong_toBeBytes32 n
  simp only [readLong, toBeBytes32, Checked.bind_def, Checked.index_cons_zero,
    Checked.index_cons_succ, Checked.ok_bind, hvalue]

theorem readAddress_octets (ip : Ipv4Address) : readAddress ip.octets = .ok ip := rfl

theorem ofNat_beWord (n : UInt16) :
    UInt16.ofNat (beWord (UInt8.ofNat (n.toNat / 256)) (UInt8.ofNat n.toNat)) = n := by
  rw [beWord_toBeBytes16 n.toNat_lt, UInt16.ofNat_toNat]

theorem parseValue_mpUnreach {mp : MpUnreachNlri} (h : mp.nlri.length ≤ 4096) :
    MpUnreachNlri.parseValue mp.encodeValue = .ok mp := by
  have hafi := ofNat_beWord mp.afi
  have hslice : (slice mp.encodeValue 3 mp.encodeValue.length : Parsed (List UInt8)) =
      .ok mp.nlri := by
    rw [Checked.slice_eq_ok (by simp [MpUnreachNlri.encodeValue, toBeBytes16]) le_rfl,
      List.take_length]
    rfl
  rw [MpUnreachNlri.parseValue, if_neg (by simp [MpUnreachNlri.encodeValue, toBeBytes16]), hslice,
    Checked.ok_bind, if_neg (by simpa [maxMpNlriBytes] using h)]
  simp only [MpUnreachNlri.encodeValue, toBeBytes16, List.cons_append, List.nil_append,
    Checked.bind_def, Checked.index_cons_zero, Checked.index_cons_succ, Checked.ok_bind, hafi]

theorem parseValue_mpReach {mp : MpReachNlri} (hnext : mp.nextHop.length ≤ 255)
    (hnlri : mp.nlri.length ≤ 4096) : MpReachNlri.parseValue mp.encodeValue = .ok mp := by
  have hafi := ofNat_beWord mp.afi
  have hlen : (UInt8.ofNat mp.nextHop.length).toNat = mp.nextHop.length := by
    simp
    omega
  obtain ⟨pre, hpre, hvalue⟩ : ∃ pre : List UInt8, pre.length = 4 ∧
      mp.encodeValue = pre ++ (mp.nextHop ++ (0 :: mp.nlri)) :=
    ⟨toBeBytes16 mp.afi.toNat ++ [mp.safi, UInt8.ofNat mp.nextHop.length], rfl,
      by simp [MpReachNlri.encodeValue]⟩
  have htotal : mp.encodeValue.length = 4 + (mp.nextHop.length + (mp.nlri.length + 1)) := by
    rw [hvalue]
    simp [hpre]
  have hhop : (slice mp.encodeValue 4 (4 + mp.nextHop.length) : Parsed (List UInt8)) =
      .ok mp.nextHop := by
    rw [hvalue, ← hpre]
    exact Checked.slice_middle _ _ _
  have hrest : (slice mp.encodeValue (4 + mp.nextHop.length + 1) mp.encodeValue.length :
      Parsed (List UInt8)) = .ok mp.nlri := by
    rw [Checked.slice_eq_ok (by omega) le_rfl, List.take_length, hvalue, ← List.append_assoc,
      List.append_cons, List.drop_left' (by simp [hpre]; omega)]
  rw [MpReachNlri.parseValue, if_neg (by omega)]
  have h₀ : (index mp.encodeValue 0 : Parsed UInt8) = .ok (UInt8.ofNat (mp.afi.toNat / 256)) := rfl
  have h₁ : (index mp.encodeValue 1 : Parsed UInt8) = .ok (UInt8.ofNat mp.afi.toNat) := rfl
  have h₂ : (index mp.encodeValue 2 : Parsed UInt8) = .ok mp.safi := rfl
  have h₃ : (index mp.encodeValue 3 : Parsed UInt8) = .ok (UInt8.ofNat mp.nextHop.length) := rfl
  simp only [Checked.bind_def, h₀, h₁, h₂, h₃, Checked.ok_bind, hlen]
  rw [if_neg (by omega), hrest, Checked.ok_bind,
    if_neg (by simpa [maxMpNlriBytes] using hnlri), hhop, Checked.ok_bind, hafi]

end slots

/-! ### Reading a slot back -/

section reads

variable {w : Bool} {parsed : ParsedAttributes}

/-- The literal list of bytes is kept abstract, so that only the type code is looked at. -/
theorem read_long {flags : UInt8} {value : List UInt8} {n : UInt32} :
    (parseLong "MULTI_EXIT_DISC" value = .ok n →
      AttributeSlot.read w ⟨flags, bgpAttrMed, some value⟩ parsed =
        .ok { parsed with med := some n }) ∧
    (parseLong "LOCAL_PREF" value = .ok n →
      AttributeSlot.read w ⟨flags, bgpAttrLocalPref, some value⟩ parsed =
        .ok { parsed with localPref := some n }) :=
  ⟨Checked.bind_of_eq_ok _, Checked.bind_of_eq_ok _⟩

theorem read_address {flags : UInt8} {value : List UInt8} {ip : Ipv4Address} :
    (parseNextHop flags value = .ok ip →
      AttributeSlot.read w ⟨flags, bgpAttrNextHop, some value⟩ parsed =
        .ok { parsed with nextHop := some ip }) ∧
    (parseOriginatorId flags value = .ok ip →
      AttributeSlot.read w ⟨flags, bgpAttrOriginatorId, some value⟩ parsed =
        .ok { parsed with originatorId := some ip }) :=
  ⟨Checked.bind_of_eq_ok _, Checked.bind_of_eq_ok _⟩

theorem read_origin (o : BgpOrigin) :
    AttributeSlot.read w ⟨bgpAttrFlagTransitive, bgpAttrOrigin, some [o.toU8]⟩ parsed =
      .ok { parsed with origin := some o } := by
  cases o <;> rfl

theorem read_asPath (p : AsPath) :
    AttributeSlot.read w ⟨bgpAttrFlagTransitive, bgpAttrAsPath, some (p.encodeWidth w)⟩ parsed =
      .ok { parsed with asPath := some (p.onWire w) } := by
  have hparse : parseAsPath w bgpAttrFlagTransitive (p.encodeWidth w) = .ok (p.onWire w) := by
    rw [parseAsPath, if_neg (by decide), decodeWidth_encodeWidth]
  exact Checked.bind_of_eq_ok _ hparse

theorem read_as4Path (p : AsPath) (c : Bool) (h : parsed.as4Path = none) :
    AttributeSlot.read w ⟨bgpAttrFlagOptional ||| bgpAttrFlagTransitive, bgpAttrAs4Path,
      if c then some (p.encodeWidth true) else none⟩ parsed =
      .ok { parsed with as4Path := if c then some (p.onWire true) else none } := by
  cases c with
  | false => simp [AttributeSlot.read, ← h]
  | true =>
    have hparse : parseAs4Path (bgpAttrFlagOptional ||| bgpAttrFlagTransitive)
        (p.encodeWidth true) = .ok (p.onWire true) := by
      rw [parseAs4Path, if_neg (by decide), decodeWidth_encodeWidth]
    exact Checked.bind_of_eq_ok _ hparse

theorem read_nextHop (ip : Ipv4Address) (c : Bool) (h : parsed.nextHop = none) :
    AttributeSlot.read w ⟨bgpAttrFlagTransitive, bgpAttrNextHop, if c then some ip.octets else none⟩
      parsed = .ok { parsed with nextHop := if c then some ip else none } := by
  cases c with
  | false => simp [AttributeSlot.read, ← h]
  | true =>
    have hparse : parseNextHop bgpAttrFlagTransitive ip.octets = .ok ip := by
      rw [parseNextHop, if_neg (by decide), if_neg (by simp [Ipv4Address.octets]),
        readAddress_octets]
    exact read_address.1 hparse

theorem parseLong_toBeBytes32 (name : String) (n : UInt32) :
    parseLong name (toBeBytes32 n.toNat) = .ok n := by
  rw [parseLong, if_neg (by simp [toBeBytes32]), readLong_toBeBytes32]

theorem read_med (med : Option UInt32) (h : parsed.med = none) :
    AttributeSlot.read w ⟨bgpAttrFlagOptional, bgpAttrMed, med.map fun n => toBeBytes32 n.toNat⟩
      parsed = .ok { parsed with med := med } := by
  cases med with
  | none => exact congrArg (fun m => Checked.ok { parsed with med := m }) h
  | some n =>
    exact read_long.1 (parseLong_toBeBytes32 _ n)

theorem read_localPref (lp : Option UInt32) (h : parsed.localPref = none) :
    AttributeSlot.read w
      ⟨bgpAttrFlagTransitive, bgpAttrLocalPref, lp.map fun n => toBeBytes32 n.toNat⟩ parsed =
      .ok { parsed with localPref := lp } := by
  cases lp with
  | none => exact congrArg (fun m => Checked.ok { parsed with localPref := m }) h
  | some n =>
    exact read_long.2 (parseLong_toBeBytes32 _ n)

theorem read_atomicAggregate (c : Bool) (h : parsed.atomicAggregate = false) :
    AttributeSlot.read w
      ⟨bgpAttrFlagTransitive, bgpAttrAtomicAggregate, if c then some [] else none⟩ parsed =
      .ok { parsed with atomicAggregate := c } := by
  cases c with
  | false => exact congrArg (fun m => Checked.ok { parsed with atomicAggregate := m }) h
  | true => rfl

theorem read_originatorId (id : Option Ipv4Address) (h : parsed.originatorId = none) :
    AttributeSlot.read w ⟨bgpAttrFlagOptional, bgpAttrOriginatorId, id.map Ipv4Address.octets⟩
      parsed = .ok { parsed with originatorId := id } := by
  cases id with
  | none => exact congrArg (fun m => Checked.ok { parsed with originatorId := m }) h
  | some ip =>
    have hparse : parseOriginatorId bgpAttrFlagOptional ip.octets = .ok ip := by
      rw [parseOriginatorId, if_neg (by decide), if_neg (by simp [Ipv4Address.octets]),
        readAddress_octets]
    exact read_address.2 hparse

theorem read_clusterList {ids : List Ipv4Address} (hlen : ids.length ≤ maxClusterListLen)
    (h : parsed.clusterList = []) :
    AttributeSlot.read w ⟨bgpAttrFlagOptional, bgpAttrClusterList,
      if ids.isEmpty then none else some (ids.flatMap Ipv4Address.octets)⟩ parsed =
      .ok { parsed with clusterList := ids } := by
  cases ids with
  | nil => exact congrArg (fun m => Checked.ok { parsed with clusterList := m }) h
  | cons id rest =>
    have hbytes := length_flatMap_octets (id :: rest)
    have hne : ((id :: rest).flatMap Ipv4Address.octets).isEmpty = false := by
      simp [Ipv4Address.octets]
    have hparse : parseClusterList bgpAttrFlagOptional ((id :: rest).flatMap Ipv4Address.octets) =
        .ok (id :: rest) := by
      rw [parseClusterList, if_neg (by decide), if_neg (by rw [hne, hbytes]; simp),
        if_neg (by omega), addressesOf_flatMap]
    exact (Checked.bind_of_eq_ok _ hparse).trans (by rw [h, List.nil_append])

theorem read_extCommunities (comms : List (Vector UInt8 8)) (h : parsed.extCommunities = []) :
    AttributeSlot.read w ⟨bgpAttrFlagOptional ||| bgpAttrFlagTransitive, bgpAttrExtCommunities,
      if comms.isEmpty then none else some (comms.flatMap Vector.toList)⟩ parsed =
      .ok { parsed with extCommunities := comms } := by
  cases comms with
  | nil => exact congrArg (fun m => Checked.ok { parsed with extCommunities := m }) h
  | cons comm rest =>
    have hbytes := length_flatMap_communities (comm :: rest)
    have hne : ((comm :: rest).flatMap Vector.toList).isEmpty = false := by
      rw [List.isEmpty_eq_false_iff, ← List.length_pos_iff, hbytes]
      simp
    have hparse : parseExtCommunities ((comm :: rest).flatMap Vector.toList) =
        .ok (comm :: rest) := by
      rw [parseExtCommunities, if_neg (by rw [hne, hbytes]; simp), communitiesOf_flatMap]
    exact (Checked.bind_of_eq_ok _ hparse).trans (by rw [h, List.nil_append])

theorem read_mpReach {mp : Option MpReachNlri}
    (hmp : ∀ m ∈ mp, m.nextHop.length ≤ 255 ∧ m.nlri.length ≤ 4096) (h : parsed.mpReach = none) :
    AttributeSlot.read w ⟨bgpAttrFlagOptional, bgpAttrMpReachNlri, mp.map MpReachNlri.encodeValue⟩
      parsed = .ok { parsed with mpReach := mp } := by
  cases mp with
  | none => exact congrArg (fun m => Checked.ok { parsed with mpReach := m }) h
  | some m =>
    obtain ⟨hnext, hnlri⟩ := hmp m rfl
    have hparse : parseMpReach bgpAttrFlagOptional m.encodeValue = .ok m := by
      rw [parseMpReach, if_neg (by decide), parseValue_mpReach hnext hnlri]
    exact Checked.bind_of_eq_ok _ hparse

theorem read_mpUnreach {mp : Option MpUnreachNlri} (hmp : ∀ m ∈ mp, m.nlri.length ≤ 4096)
    (h : parsed.mpUnreach = none) :
    AttributeSlot.read w
      ⟨bgpAttrFlagOptional, bgpAttrMpUnreachNlri, mp.map MpUnreachNlri.encodeValue⟩ parsed =
      .ok { parsed with mpUnreach := mp } := by
  cases mp with
  | none => exact congrArg (fun m => Checked.ok { parsed with mpUnreach := m }) h
  | some m =>
    have hparse : parseMpUnreach bgpAttrFlagOptional m.encodeValue = .ok m := by
      rw [parseMpUnreach, if_neg (by decide), parseValue_mpUnreach (hmp m rfl)]
    exact Checked.bind_of_eq_ok _ hparse

end reads

/-! ### The attribute block -/

section block

variable {w hasIpv4Nlri : Bool} {a : BgpPathAttributes}

/-- The lengths that single octets and the receiver's limits allow. -/
structure BgpPathAttributes.Valid (a : BgpPathAttributes) : Prop where
  clusterList : a.clusterList.length ≤ maxClusterListLen
  nextHop : ∀ mp ∈ a.mpReach, mp.nextHop.length ≤ 255

/-- What is read back from the slots. -/
def BgpPathAttributes.readBack (a : BgpPathAttributes) (hasIpv4Nlri : Bool) : ParsedAttributes where
  origin := some a.origin
  asPath := some (a.asPath.onWire a.fourOctetAs)
  as4Path := if !a.fourOctetAs && a.asPath.needsFourOctets then
    some (a.asPath.onWire true) else none
  nextHop := if hasIpv4Nlri then some a.nextHop else none
  med := a.med
  localPref := a.localPref
  atomicAggregate := a.atomicAggregate
  extCommunities := a.extCommunities
  mpReach := a.mpReach
  mpUnreach := a.mpUnreach
  originatorId := a.originatorId
  clusterList := a.clusterList

theorem readSlots_slots (hv : a.Valid) (hreach : ∀ mp ∈ a.mpReach, mp.nlri.length ≤ 4096)
    (hunreach : ∀ mp ∈ a.mpUnreach, mp.nlri.length ≤ 4096) :
    readSlots a.fourOctetAs (a.slots hasIpv4Nlri) {} = .ok (a.readBack hasIpv4Nlri) := by
  simp only [BgpPathAttributes.slots, readSlots]
  rw [read_origin, Checked.ok_bind, read_asPath, Checked.ok_bind, read_as4Path _ _ rfl,
    Checked.ok_bind, read_nextHop _ _ rfl, Checked.ok_bind, read_med _ rfl, Checked.ok_bind,
    read_localPref _ rfl, Checked.ok_bind, read_atomicAggregate _ rfl, Checked.ok_bind,
    read_originatorId _ rfl, Checked.ok_bind, read_clusterList hv.clusterList rfl, Checked.ok_bind,
    read_extCommunities _ rfl, Checked.ok_bind,
    read_mpReach (fun mp h => ⟨hv.nextHop mp h, hreach mp h⟩) rfl, Checked.ok_bind,
    read_mpUnreach hunreach rfl, Checked.ok_bind]
  rfl

theorem slots_flags (s : AttributeSlot) (hs : s ∈ a.slots hasIpv4Nlri) :
    s.flags &&& bgpAttrFlagExtLen = 0 := by
  have hall : (a.slots hasIpv4Nlri).map (fun s => s.flags &&& bgpAttrFlagExtLen) =
      List.replicate 12 0 := by
    simp only [BgpPathAttributes.slots, List.map_cons, List.map_nil]
    decide
  have hmem := List.mem_map_of_mem (f := fun s => s.flags &&& bgpAttrFlagExtLen) hs
  rw [hall] at hmem
  exact List.eq_of_mem_replicate hmem

theorem slots_codes : ((a.slots hasIpv4Nlri).map AttributeSlot.typeCode).Nodup := by
  simp only [BgpPathAttributes.slots, List.map_cons, List.map_nil]
  decide

/-- The NLRI of a multiprotocol attribute are part of the block. -/
theorem nlri_le_length_slots (a : BgpPathAttributes) (hasIpv4Nlri : Bool) :
    (∀ mp ∈ a.mpReach, mp.nlri.length ≤
      ((a.slots hasIpv4Nlri).flatMap AttributeSlot.encode).length) ∧
    ∀ mp ∈ a.mpUnreach, mp.nlri.length ≤
      ((a.slots hasIpv4Nlri).flatMap AttributeSlot.encode).length := by
  have hslot : ∀ s ∈ a.slots hasIpv4Nlri, ∀ value ∈ s.value, value.length ≤
      ((a.slots hasIpv4Nlri).flatMap AttributeSlot.encode).length := by
    intro s hs value hvalue
    have hpush : value.length ≤ s.encode.length := by
      rw [AttributeSlot.encode, Option.mem_def.mp hvalue]
      exact length_le_pushAttribute _ _ _
    rw [List.flatMap_def]
    exact hpush.trans (List.sublist_flatten_of_mem (List.mem_map_of_mem hs)).length_le
  constructor
  · intro mp hmp
    have hle := hslot ⟨bgpAttrFlagOptional, bgpAttrMpReachNlri,
      a.mpReach.map MpReachNlri.encodeValue⟩
      (by simp [BgpPathAttributes.slots]) mp.encodeValue (by simp [Option.mem_def.mp hmp])
    simp only [MpReachNlri.encodeValue, List.length_append] at hle
    omega
  · intro mp hmp
    have hle := hslot
      ⟨bgpAttrFlagOptional, bgpAttrMpUnreachNlri, a.mpUnreach.map MpUnreachNlri.encodeValue⟩
      (by simp [BgpPathAttributes.slots]) mp.encodeValue (by simp [Option.mem_def.mp hmp])
    simp only [MpUnreachNlri.encodeValue, List.length_append] at hle
    omega

theorem parseAttributes_encodeFor (hv : a.Valid) (hw : a.isMpWithdrawOnly hasIpv4Nlri = false)
    (hlen : (a.encodeFor hasIpv4Nlri).length ≤ 4096) :
    parseAttributes a.fourOctetAs (a.encodeFor hasIpv4Nlri) = .ok (a.readBack hasIpv4Nlri) := by
  rw [encodeFor_eq_slots hw] at hlen ⊢
  obtain ⟨hreach, hunreach⟩ := nlri_le_length_slots a hasIpv4Nlri
  rw [parseAttributes, parseAttributesFrom_slots slots_flags (by omega) slots_codes (by simp)]
  exact readSlots_slots hv (fun mp h => (hreach mp h).trans hlen)
    fun mp h => (hunreach mp h).trans hlen

theorem parseAttributes_mpWithdraw {mp : MpUnreachNlri} (hmp : a.mpUnreach = some mp)
    (hw : a.isMpWithdrawOnly hasIpv4Nlri = true) (hlen : (a.encodeFor hasIpv4Nlri).length ≤ 4096) :
    parseAttributes w (a.encodeFor hasIpv4Nlri) = .ok { mpUnreach := some mp } := by
  have hbytes : a.encodeFor hasIpv4Nlri =
      pushAttribute bgpAttrFlagOptional bgpAttrMpUnreachNlri mp.encodeValue ++ [] := by
    rw [BgpPathAttributes.encodeFor, if_pos hw, hmp, List.append_nil]
  have hvalue : mp.encodeValue.length ≤ 4096 := by
    rw [hbytes, List.append_nil] at hlen
    exact (length_le_pushAttribute _ _ _).trans hlen
  have hnlri : mp.nlri.length ≤ 4096 := by
    simp only [MpUnreachNlri.encodeValue, List.length_append] at hvalue
    omega
  have hread : parseAttributeValue w bgpAttrFlagOptional bgpAttrMpUnreachNlri mp.encodeValue {} =
      .ok { mpUnreach := some mp } :=
    read_mpUnreach (w := w) (fun m hm => Option.mem_some_iff.mp hm ▸ hnlri) rfl
  rw [hbytes, parseAttributes, parseAttributesFrom_pushAttribute (by decide) (by omega) (by simp)]
  refine (Checked.bind_of_eq_ok _ hread).trans ?_
  rw [parseAttributesFrom]

end block

end ToyTcpip.Bgp
