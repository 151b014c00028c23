import ToyTcpip.Bgp.Roundtrip

/-! AS paths over a two-octet session: what the AS4_PATH merge recovers. -/
namespace ToyTcpip.Bgp

variable {p : AsPath} {asn : UInt32}

/-- A set with something in it. -/
def AsPath.HasSet (p : AsPath) : Prop := ∃ s ∈ p.segments, s.kind = .set ∧ s.asns ≠ []

/-- The path cut into segments of at most 255, empty ones left out. -/
def AsPath.split (p : AsPath) : AsPath := ⟨p.pieces⟩

/-- The path with every wide AS number replaced by AS_TRANS. -/
def AsPath.narrowed (p : AsPath) : AsPath :=
  ⟨p.segments.map fun s => ⟨s.kind, s.asns.map narrowAsn⟩⟩

/-- The paths that come back segment for segment: short segments of narrow numbers, or one sequence
with a wide one in it. -/
def AsPath.Survives (p : AsPath) : Prop :=
  (p.needsFourOctets = false ∧ ∀ s ∈ p.segments, s.asns ≠ [] ∧ s.asns.length ≤ 255) ∨
  (p.needsFourOctets = true ∧ ∃ asns, p.segments = [⟨.sequence, asns⟩])

theorem contains_iff : p.contains asn = true ↔ asn ∈ p.flatten := by
  simp [AsPath.contains, AsPath.flatten]

theorem needsFourOctets_iff : p.needsFourOctets = true ↔ ∃ a ∈ p.flatten, 65535 < a.toNat := by
  simp only [AsPath.needsFourOctets, AsPath.flatten, List.any_eq_true, List.mem_flatMap,
    decide_eq_true_eq]
  constructor
  · rintro ⟨s, hs, a, ha, h⟩
    exact ⟨a, ⟨s, hs, ha⟩, h⟩
  · rintro ⟨a, ⟨s, hs, ha⟩, h⟩
    exact ⟨s, hs, a, ha, h⟩

theorem narrowAsn_eq_iff : narrowAsn asn = asn ↔ asn.toNat ≤ 65535 := by
  unfold narrowAsn
  constructor
  · intro h
    by_contra hwide
    rw [if_neg hwide] at h
    rw [← h] at hwide
    exact hwide (by decide)
  · intro h
    rw [if_pos h]

theorem flatten_split (p : AsPath) : p.split.flatten = p.flatten := by
  simp only [AsPath.split, AsPath.flatten, AsPath.pieces, List.flatMap_assoc, List.flatMap_map]
  congr 1
  funext s
  rw [List.flatMap_id', Chunks.flatten_chunks]

theorem flatten_narrowed (p : AsPath) : p.narrowed.flatten = p.flatten.map narrowAsn := by
  simp [AsPath.narrowed, AsPath.flatten, List.map_flatMap, List.flatMap_map]

theorem onWire_true (p : AsPath) : p.onWire true = p.split := by
  have hid : wireSegment true = id := by
    funext seg
    have hasn : wireAsn true = id := rfl
    rw [wireSegment, hasn, List.map_id, id]
  rw [AsPath.onWire, hid, List.map_id, AsPath.split]

theorem onWire_false (p : AsPath) : p.onWire false = p.split.narrowed := rfl

theorem narrowed_eq (h : p.needsFourOctets = false) : p.narrowed = p := by
  have hnarrow : ∀ s ∈ p.segments, s.asns.map narrowAsn = s.asns := by
    intro s hs
    refine (List.map_congr_left fun a ha => ?_).trans (List.map_id _)
    refine narrowAsn_eq_iff.mpr ?_
    by_contra hwide
    have hneeds : p.needsFourOctets = true := needsFourOctets_iff.mpr
      ⟨a, List.mem_flatMap.mpr ⟨s, hs, ha⟩, by omega⟩
    simp [h] at hneeds
  obtain ⟨segments⟩ := p
  simp only [AsPath.narrowed, AsPath.mk.injEq]
  refine (List.map_congr_left fun s hs => ?_).trans (List.map_id _)
  rw [hnarrow s hs, id]

theorem hasSet_split_iff : (∃ s ∈ p.split.segments, s.kind ≠ .sequence) ↔ p.HasSet := by
  constructor
  · rintro ⟨s, hs, hkind⟩
    obtain ⟨s', hs', heq, hchunk⟩ := mem_pieces hs
    refine ⟨s', hs', ?_, fun hnil => ?_⟩
    · rw [← heq]
      cases h : s.kind with
      | set => rfl
      | sequence => exact absurd h hkind
    · rw [hnil, Chunks.chunks_nil] at hchunk
      simp at hchunk
  · rintro ⟨s, hs, hkind, hne⟩
    obtain ⟨chunk, hchunk⟩ : ∃ chunk, chunk ∈ Chunks.chunks asPathMaxSegmentAsns s.asns := by
      refine List.exists_mem_of_ne_nil _ fun hnil => ?_
      have := Chunks.flatten_chunks asPathMaxSegmentAsns s.asns
      rw [hnil] at this
      exact hne this.symm
    refine ⟨⟨s.kind, chunk⟩, ?_, by simp [hkind]⟩
    exact List.mem_flatMap.mpr ⟨s, hs, List.mem_map.mpr ⟨chunk, hchunk, rfl⟩⟩

/-- With a wide number and no set, both paths are sequences of one length and the wide one replaces
the narrow one whole. -/
theorem mergeAs4Path_eq (h : p.needsFourOctets = true) :
    (p.onWire false).mergeAs4Path (p.onWire true) = .sequence p.flatten ∧ ¬ p.HasSet ∨
    (p.onWire false).mergeAs4Path (p.onWire true) = p.split.narrowed ∧ p.HasSet := by
  obtain ⟨a, ha, -⟩ := needsFourOctets_iff.mp h
  have hne : p.flatten ≠ [] := List.ne_nil_of_mem ha
  have hlen : (p.flatten.map narrowAsn).length = p.flatten.length := List.length_map _
  have hkinds : ((p.split.narrowed.segments ++ p.split.segments).any fun s => s.kind ≠ .sequence) =
      true ↔ p.HasSet := by
    rw [← hasSet_split_iff]
    simp only [AsPath.narrowed, List.any_append, List.any_map, Bool.or_eq_true, List.any_eq_true,
      Function.comp_apply, decide_eq_true_eq, or_self]
  simp only [AsPath.mergeAs4Path, onWire_true, onWire_false, flatten_narrowed, flatten_split, hlen]
  rw [if_neg (by simp [hne])]
  by_cases hset : p.HasSet
  · right
    rw [if_pos (hkinds.mpr hset)]
    exact ⟨rfl, hset⟩
  · left
    rw [if_neg (mt hkinds.mp hset)]
    refine ⟨?_, hset⟩
    rw [Nat.sub_self, List.take_zero, List.nil_append]

theorem received_narrow (h : p.needsFourOctets = false) : p.received false = p.split := by
  have hsplit : p.split.needsFourOctets = false := by
    rw [← Bool.not_eq_true, needsFourOctets_iff, flatten_split, ← needsFourOctets_iff, h]
    simp
  rw [AsPath.received, h]
  exact narrowed_eq hsplit

theorem received_wide (h : p.needsFourOctets = true) :
    p.received false = .sequence p.flatten ∧ ¬ p.HasSet ∨
    p.received false = p.split.narrowed ∧ p.HasSet := by
  have hr : p.received false = (p.onWire false).mergeAs4Path (p.onWire true) := by
    rw [AsPath.received, h]
    rfl
  rw [hr]
  exact mergeAs4Path_eq h

theorem flatten_sequence (asns : List UInt32) : (AsPath.sequence asns).flatten = asns := by
  cases asns <;> simp [AsPath.sequence, AsPath.flatten, AsPath.empty]

/-- The numbers come back in order, unless a set and a wide number meet. -/
theorem flatten_received (h : ¬ (p.needsFourOctets = true ∧ p.HasSet)) :
    (p.received false).flatten = p.flatten := by
  cases hneeds : p.needsFourOctets with
  | false => rw [received_narrow hneeds, flatten_split]
  | true =>
    rcases received_wide hneeds with ⟨hr, -⟩ | ⟨-, hset⟩
    · rw [hr, flatten_sequence]
    · exact absurd ⟨hneeds, hset⟩ h

theorem mem_map_narrowAsn (hle : asn.toNat ≤ 65535) (hne : asn ≠ asTrans) (l : List UInt32) :
    asn ∈ l.map narrowAsn ↔ asn ∈ l := by
  rw [List.mem_map]
  constructor
  · rintro ⟨a, ha, heq⟩
    unfold narrowAsn at heq
    split at heq
    · rwa [← heq]
    · exact absurd heq.symm hne
  · intro ha
    exact ⟨asn, ha, narrowAsn_eq_iff.mpr hle⟩

/-- A narrow number other than AS_TRANS is never lost and never made up. -/
theorem contains_received (hle : asn.toNat ≤ 65535) (hne : asn ≠ asTrans) :
    (p.received false).contains asn = p.contains asn := by
  rw [Bool.eq_iff_iff, contains_iff, contains_iff]
  by_cases h : p.needsFourOctets = true ∧ p.HasSet
  · rcases received_wide h.1 with ⟨-, hset⟩ | ⟨hr, -⟩
    · exact absurd h.2 hset
    · rw [hr, flatten_narrowed, flatten_split, mem_map_narrowAsn hle hne]
  · rw [flatten_received h]

theorem pieces_eq (h : ∀ s ∈ p.segments, s.asns ≠ [] ∧ s.asns.length ≤ 255) :
    p.pieces = p.segments := by
  have hone : ∀ s ∈ p.segments,
      (Chunks.chunks asPathMaxSegmentAsns s.asns).map (fun chunk => ⟨s.kind, chunk⟩) = [s] := by
    intro s hs
    have hchunk : Chunks.chunks asPathMaxSegmentAsns s.asns = [s.asns] :=
      Chunks.chunks_of_length_le (h s hs).1 (h s hs).2
    rw [hchunk]
    rfl
  rw [AsPath.pieces, List.flatMap_congr hone, List.flatMap_singleton']

theorem received_eq_iff : p.received false = p ↔ p.Survives := by
  unfold AsPath.Survives
  cases hneeds : p.needsFourOctets with
  | false =>
    rw [received_narrow hneeds]
    constructor
    · intro h
      refine .inl ⟨rfl, fun s hs => ?_⟩
      have hs' : s ∈ p.pieces := by
        have : p.pieces = p.segments := congrArg AsPath.segments h
        rwa [this]
      obtain ⟨hpos, hle⟩ := pieces_length hs'
      exact ⟨List.ne_nil_of_length_pos hpos, hle⟩
    · rintro (⟨-, h⟩ | ⟨h, -⟩)
      · rw [AsPath.split, pieces_eq h]
      · simp at h
  | true =>
    obtain ⟨a, ha, hwide⟩ := needsFourOctets_iff.mp hneeds
    have hempty : p.flatten.isEmpty = false := by
      rw [List.isEmpty_eq_false_iff]
      exact List.ne_nil_of_mem ha
    constructor
    · intro h
      rcases received_wide hneeds with ⟨hr, -⟩ | ⟨hr, -⟩
      · refine .inr ⟨rfl, p.flatten, ?_⟩
        rw [h, AsPath.sequence, hempty] at hr
        exact congrArg AsPath.segments hr
      · exfalso
        have hmem : a ∈ p.flatten.map narrowAsn := by
          rw [← flatten_split, ← flatten_narrowed, ← hr, h]
          exact ha
        obtain ⟨b, -, hb⟩ := List.mem_map.mp hmem
        have := narrowAsn_lt b
        rw [hb] at this
        omega
    · rintro (⟨h, -⟩ | ⟨-, asns, h⟩)
      · simp at h
      · have hset : ¬ p.HasSet := by
          rintro ⟨s, hs, hkind, -⟩
          rw [h, List.mem_singleton] at hs
          simp [hs] at hkind
        have hflat : p.flatten = asns := by simp [AsPath.flatten, h]
        rcases received_wide hneeds with ⟨hr, -⟩ | ⟨-, hset'⟩
        · rw [hr, AsPath.sequence, hempty, hflat]
          obtain ⟨segments⟩ := p
          simpa using h.symm
        · exact absurd hset' hset

/-- An UPDATE that announces routes is read back with the path its two-octet encoding and AS4_PATH
determine. The AS numbers all come back in order, and the loop test with them, unless a wide number
and a set are on the path together; then the wide ones are AS_TRANS. -/
theorem two_octet_transition (u : BgpUpdateMessage) (a : BgpPathAttributes)
    (ha : u.attributes = some a) (hu : u.Valid) (hroutes : u.nlri ≠ [] ∨ a.mpReach.isSome = true)
    (hwidth : a.fourOctetAs = false)
    (hfits : (BgpPdu.update u).serialize.length ≤ bgpMaxMessageLen) :
    ∃ u' a', BgpPdu.parseWidth (BgpPdu.update u).serialize false = .ok (.update u') ∧
      u'.attributes = some a' ∧
      (¬ (a.asPath.needsFourOctets = true ∧ a.asPath.HasSet) →
        a'.asPath.flatten = a.asPath.flatten ∧
        ∀ asn, a'.asPath.contains asn = a.asPath.contains asn) ∧
      (a.asPath.needsFourOctets = true ∧ a.asPath.HasSet → a'.asPath = a.asPath.split.narrowed) ∧
      (∀ asn, asn.toNat ≤ 65535 → asn ≠ asTrans → a'.asPath.contains asn = a.asPath.contains asn) ∧
      (a'.asPath = a.asPath ↔ a.asPath.Survives) := by
  have hdescribes : u.describes a = true := by
    rcases hroutes with h | h
    · simp [BgpUpdateMessage.describes, h]
    · simp [BgpUpdateMessage.describes, h]
  have hcanon : (a.canonical (!u.nlri.isEmpty)).asPath = a.asPath.received false := by
    unfold BgpPathAttributes.canonical
    split
    · rename_i honly
      rcases hroutes with h | h
      · simp [BgpPathAttributes.isMpWithdrawOnly, h] at honly
      · obtain ⟨mp, hmp⟩ := Option.isSome_iff_exists.mp h
        simp [BgpPathAttributes.isMpWithdrawOnly, hmp] at honly
    · rw [hwidth]
  refine ⟨u.canonical, a.canonical (!u.nlri.isEmpty), ?_, ?_, ?_⟩
  · have hw : (BgpPdu.update u).WrittenFor false := fun b hb => by
      rw [ha, Option.mem_some_iff] at hb
      rw [← hb, hwidth]
    exact parseWidth_serialize hu hw hfits
  · simp [BgpUpdateMessage.canonical, ha, hdescribes]
  · rw [hcanon]
    refine ⟨fun h => ⟨flatten_received h, fun asn => ?_⟩, fun h => ?_, fun asn => contains_received,
      received_eq_iff⟩
    · rw [Bool.eq_iff_iff, contains_iff, contains_iff, flatten_received h]
    · rcases received_wide h.1 with ⟨-, hset⟩ | ⟨hr, -⟩
      · exact absurd h.2 hset
      · exact hr

example : (AsPath.sequence [65001, 70000]).narrowed = .sequence [65001, 23456] := by decide +kernel

/-- An UPDATE that announces one prefix with the path `p` on a two-octet session. -/
def announcementOf (p : AsPath) : BgpUpdateMessage :=
  .announce (.new .igp p ⟨10, 0, 0, 1⟩) [⟨⟨10, 30, 0, 0⟩, 24⟩]

theorem announcementOf_valid (p : AsPath) : (announcementOf p).Valid :=
  ⟨by simp [announcementOf, BgpUpdateMessage.announce], fun q hq => by
    obtain rfl := List.mem_singleton.mp hq
    decide, fun a ha => by
    obtain rfl := Option.mem_some_iff.mp ha
    exact ⟨by simp [BgpPathAttributes.new], by simp [BgpPathAttributes.new]⟩,
    by simp [announcementOf, BgpUpdateMessage.announce]⟩

theorem two_octet_transition_sequence :
    ∃ u' a', BgpPdu.parseWidth (BgpPdu.update (announcementOf (.sequence [65001, 70000]))).serialize
        false = .ok (.update u') ∧ u'.attributes = some a' ∧
            a'.asPath = .sequence [65001, 70000] := by
  obtain ⟨u', a', hparse, hattr, -, -, -, hexact⟩ :=
    two_octet_transition (announcementOf (.sequence [65001, 70000])) _ rfl
      (announcementOf_valid _) (.inl (by simp [announcementOf, BgpUpdateMessage.announce])) rfl
      (by decide +kernel)
  exact ⟨u', a', hparse, hattr, hexact.mpr (.inr ⟨by decide, [65001, 70000], rfl⟩)⟩

/-- A set with a wide number comes back with AS_TRANS in its place: the loop test for that number
no longer sees it. -/
theorem wide_set_not_recovered :
    BgpPdu.parseWidth
      (BgpPdu.update (announcementOf ⟨[⟨.sequence, [65001]⟩, ⟨.set, [70000]⟩]⟩)).serialize false =
      .ok (.update (announcementOf ⟨[⟨.sequence, [65001]⟩, ⟨.set, [23456]⟩]⟩)) ∧
    (⟨[⟨.sequence, [65001]⟩, ⟨.set, [70000]⟩]⟩ : AsPath).contains 70000 = true ∧
    (⟨[⟨.sequence, [65001]⟩, ⟨.set, [23456]⟩]⟩ : AsPath).contains 70000 = false := by
  refine ⟨?_, by decide, by decide⟩
  decide +kernel

end ToyTcpip.Bgp

/-! ### What AS4_PATH does to the path read from a four-octet session. -/
namespace ToyTcpip.Bgp

open Checked (bind_eq_ok ite_error_eq_ok slice)

/-! ### The attributes of a block -/

/-- The type codes and values of a block of attributes, whatever the values mean. -/
def attributeList : List UInt8 → List (UInt8 × List UInt8)
  | [] => []
  | b :: tail =>
    match attributeHeader (b :: tail) with
    | .ok h =>
      let valEnd := h.hdr + h.len
      (h.typeCode, ((b :: tail).take valEnd).drop h.hdr) :: attributeList (tail.drop (valEnd - 1))
    | _ => []
termination_by data => data.length
decreasing_by simp

/-- The value of the first attribute of a type. -/
def attributeOf (typeCode : UInt8) (block : List UInt8) : Option (List UInt8) :=
  ((attributeList block).find? fun a => a.1 = typeCode).map Prod.snd

/-- The path attributes of an UPDATE body. -/
def attributeBlock (body : List UInt8) : List UInt8 :=
  let attrLenOff := 2 + wordAt body 0
  (body.drop (attrLenOff + 2)).take (wordAt body attrLenOff)

example : attributeOf 5 [0x40, 1, 1, 0, 0x40, 5, 1, 9] = some [9] := by decide +kernel

theorem attributeOf_cons {b : UInt8} {tail : List UInt8} {h : AttributeHeader} (typeCode : UInt8)
    (hh : attributeHeader (b :: tail) = .ok h) :
    attributeOf typeCode (b :: tail) =
      if h.typeCode = typeCode then some (((b :: tail).take (h.hdr + h.len)).drop h.hdr)
      else attributeOf typeCode (tail.drop (h.hdr + h.len - 1)) := by
  rw [attributeOf, attributeList, hh]
  by_cases heq : h.typeCode = typeCode
  · simp [heq]
  · simp [heq, attributeOf]

section reading

variable {w : Bool} {data seen : List UInt8} {parsed out : ParsedAttributes} {typeCode : UInt8}

/-- One round of the loop. -/
theorem parseAttributesFrom_cons {b : UInt8} {tail : List UInt8}
    (h : parseAttributesFrom w (b :: tail) seen parsed = .ok out) :
    ∃ header parsed', attributeHeader (b :: tail) = .ok header ∧ header.typeCode ∉ seen ∧
      parseAttributeValue w header.flags header.typeCode
        (((b :: tail).take (header.hdr + header.len)).drop header.hdr) parsed = .ok parsed' ∧
      parseAttributesFrom w (tail.drop (header.hdr + header.len - 1)) (seen ++ [header.typeCode])
        parsed' = .ok out := by
  rw [parseAttributesFrom] at h
  obtain ⟨header, hheader, h⟩ := bind_eq_ok.mp h
  simp only [ite_error_eq_ok] at h
  obtain ⟨hend, hseen, h⟩ := h
  rw [Checked.slice_eq_ok (by omega) (by omega), Checked.ok_bind] at h
  obtain ⟨parsed', hparsed, hrest⟩ := bind_eq_ok.mp h
  exact ⟨header, parsed', hheader, by simpa using hseen, hparsed, hrest⟩

/-- A block that is read after a type was seen has no attribute of it. -/
theorem attributeOf_eq_none (h : parseAttributesFrom w data seen parsed = .ok out)
    (hseen : typeCode ∈ seen) : attributeOf typeCode data = none := by
  induction data, seen, parsed using parseAttributesFrom.induct with
  | case1 => simp [attributeOf, attributeList]
  | case2 b tail seen parsed ih =>
    obtain ⟨header, parsed', hheader, hnew, -, hrest⟩ := parseAttributesFrom_cons h
    have hne : header.typeCode ≠ typeCode := fun heq => hnew (heq ▸ hseen)
    rw [attributeOf_cons typeCode hheader, if_neg hne]
    exact ih header parsed' hrest (by simp [hseen])

variable {α : Type} {field : ParsedAttributes → Option α} {read : List UInt8 → Parsed α}

/-- A field that only attributes of one type set holds what the attribute of that type reads as. -/
theorem field_of_parseAttributes
    (hset : ∀ flags value p p', parseAttributeValue w flags typeCode value p = .ok p' →
      ∃ a, read value = .ok a ∧ field p' = some a)
    (hkeep : ∀ flags code value p p', code ≠ typeCode →
      parseAttributeValue w flags code value p = .ok p' → field p' = field p)
    (h : parseAttributesFrom w data seen parsed = .ok out) :
    (∃ value a, attributeOf typeCode data = some value ∧ read value = .ok a ∧ field out = some a) ∨
      attributeOf typeCode data = none ∧ field out = field parsed := by
  induction data, seen, parsed using parseAttributesFrom.induct with
  | case1 seen parsed =>
    rw [parseAttributesFrom] at h
    cases h
    exact .inr ⟨by simp [attributeOf, attributeList], rfl⟩
  | case2 b tail seen parsed ih =>
    obtain ⟨header, parsed', hheader, hnew, hvalue, hrest⟩ := parseAttributesFrom_cons h
    rw [attributeOf_cons typeCode hheader]
    by_cases heq : header.typeCode = typeCode
    · rw [if_pos heq]
      obtain ⟨a, hread, hfield⟩ := hset _ _ _ _ (heq ▸ hvalue)
      have hseen : typeCode ∈ seen ++ [header.typeCode] := by simp [heq]
      have hnone := attributeOf_eq_none hrest hseen
      have hout : field out = field parsed' := by
        rcases ih header parsed' hrest with ⟨value, -, hsome, -⟩ | ⟨-, hout⟩
        · simp [hnone] at hsome
        · exact hout
      exact .inl ⟨_, a, rfl, hread, hout.trans hfield⟩
    · rw [if_neg heq]
      have hsame := hkeep _ _ _ _ _ heq hvalue
      rcases ih header parsed' hrest with hfound | ⟨hnone, hout⟩
      · exact .inl hfound
      · exact .inr ⟨hnone, hout.trans hsame⟩

/-- AS_PATH and AS4_PATH each set a field of their own, and no other attribute sets either. -/
theorem paths_of_parseAttributeValue {flags code : UInt8} {value : List UInt8}
    {p p' : ParsedAttributes} (h : parseAttributeValue w flags code value p = .ok p') :
    (code = bgpAttrAsPath ∧ ∃ path, AsPath.decodeWidth value w = .ok path ∧ p'.asPath = some path ∧
        p'.as4Path = p.as4Path) ∨
      (code = bgpAttrAs4Path ∧ ∃ path, AsPath.decodeWidth value true = .ok path ∧
        p'.as4Path = some path ∧
        p'.asPath = p.asPath) ∨
      code ≠ bgpAttrAsPath ∧ code ≠ bgpAttrAs4Path ∧ p'.asPath = p.asPath ∧
          p'.as4Path = p.as4Path := by
  unfold parseAttributeValue at h
  split at h
  case h_2 =>
    obtain ⟨path, hpath, h⟩ := bind_eq_ok.mp h
    cases h
    rw [parseAsPath] at hpath
    exact .inl ⟨rfl, path, (ite_error_eq_ok.mp hpath).2, rfl, rfl⟩
  case h_3 =>
    obtain ⟨path, hpath, h⟩ := bind_eq_ok.mp h
    cases h
    rw [parseAs4Path] at hpath
    exact .inr (.inl ⟨rfl, path, (ite_error_eq_ok.mp hpath).2, rfl, rfl⟩)
  case h_13 =>
    cases (ite_error_eq_ok.mp h).2
    rename_i _ hasPath has4Path _ _ _ _ _ _ _ _ _
    exact .inr (.inr ⟨fun hcode => hasPath hcode, fun hcode => has4Path hcode, rfl, rfl⟩)
  all_goals
    obtain ⟨_, -, h⟩ := bind_eq_ok.mp h
    cases h
    exact .inr (.inr ⟨by decide, by decide, rfl, rfl⟩)

theorem set_asPath {flags : UInt8} {value : List UInt8} {p p' : ParsedAttributes}
    (h : parseAttributeValue w flags bgpAttrAsPath value p = .ok p') :
    ∃ path, AsPath.decodeWidth value w = .ok path ∧ p'.asPath = some path := by
  rcases paths_of_parseAttributeValue h with ⟨-, path, hpath, hset, -⟩ | ⟨hcode, -⟩ | ⟨hcode, -⟩
  · exact ⟨path, hpath, hset⟩
  · exact absurd hcode (by decide)
  · exact absurd rfl hcode

theorem set_as4Path {flags : UInt8} {value : List UInt8} {p p' : ParsedAttributes}
    (h : parseAttributeValue w flags bgpAttrAs4Path value p = .ok p') :
    ∃ path, AsPath.decodeWidth value true = .ok path ∧ p'.as4Path = some path := by
  rcases paths_of_parseAttributeValue h with ⟨hcode, -⟩ | ⟨-, path, hpath, hset, -⟩ | ⟨-, hcode, -⟩
  · exact absurd hcode (by decide)
  · exact ⟨path, hpath, hset⟩
  · exact absurd rfl hcode

theorem keep_asPath {flags code : UInt8} {value : List UInt8} {p p' : ParsedAttributes}
    (hne : code ≠ bgpAttrAsPath) (h : parseAttributeValue w flags code value p = .ok p') :
    p'.asPath = p.asPath := by
  rcases paths_of_parseAttributeValue h with ⟨hcode, -⟩ | ⟨-, _, -, -, hkeep⟩ | ⟨-, -, hkeep, -⟩
  · exact absurd hcode hne
  · exact hkeep
  · exact hkeep

theorem keep_as4Path {flags code : UInt8} {value : List UInt8} {p p' : ParsedAttributes}
    (hne : code ≠ bgpAttrAs4Path) (h : parseAttributeValue w flags code value p = .ok p') :
    p'.as4Path = p.as4Path := by
  rcases paths_of_parseAttributeValue h with ⟨-, _, -, -, hkeep⟩ | ⟨hcode, -⟩ | ⟨-, -, -, hkeep⟩
  · exact hkeep
  · exact absurd hcode hne
  · exact hkeep

end reading

/-! ### The path of an UPDATE -/

/-- What an attribute holding a path decodes to, by itself. -/
def pathAlone (typeCode : UInt8) (fourOctetAs : Bool) (block : List UInt8) : Option AsPath :=
  (attributeOf typeCode block).bind fun value =>
    match AsPath.decodeWidth value fourOctetAs with
    | .ok path => some path
    | _ => none

theorem parsed_paths {w : Bool} {block : List UInt8} {parsed : ParsedAttributes}
    (h : parseAttributes w block = .ok parsed) :
    parsed.asPath = pathAlone bgpAttrAsPath w block ∧
      parsed.as4Path = pathAlone bgpAttrAs4Path true block := by
  constructor
  · rcases field_of_parseAttributes (fun _ _ _ _ => set_asPath)
      (fun _ _ _ _ _ => keep_asPath) h with
      ⟨value, path, hvalue, hpath, hfield⟩ | ⟨hnone, hfield⟩
    · rw [hfield, pathAlone, hvalue, Option.bind_some, hpath]
    · rw [hfield, pathAlone, hnone]
      rfl
  · rcases field_of_parseAttributes (fun _ _ _ _ => set_as4Path) (fun _ _ _ _ _ => keep_as4Path)
      h with ⟨value, path, hvalue, hpath, hfield⟩ | ⟨hnone, hfield⟩
    · rw [hfield, pathAlone, hvalue, Option.bind_some, hpath]
    · rw [hfield, pathAlone, hnone]
      rfl

theorem demandAttribute_eq_ok {α : Type} {found : Option α} {required : Bool} {default v : α}
    {what : String} (h : demandAttribute found required default what = .ok v) :
    v = found.getD default := by
  cases found with
  | some a =>
    cases h
    rfl
  | none =>
    cases (ite_error_eq_ok.mp h).2
    rfl

theorem wordAt_of_index {ε : Type} {data : List UInt8} {i : ℕ} {a b : UInt8}
    (ha : (Checked.index data i : Checked ε UInt8) = .ok a)
    (hb : (Checked.index data (i + 1) : Checked ε UInt8) = .ok b) : wordAt data i = beWord a b := by
  rw [Checked.index_eq_ok] at ha hb
  simp [wordAt, byteAt, List.getD_eq_getElem?_getD, ha, hb]

/-- The attributes of an accepted UPDATE are what its block parses to, with AS4_PATH folded in. -/
theorem attributes_of_parseBody {w : Bool} {body : List UInt8} {withdrawn nlri : List Ipv4Prefix}
    {attrs : BgpPathAttributes}
    (h : BgpUpdateMessage.parseBodyWidth body w = .ok ⟨withdrawn, some attrs, nlri⟩) :
    ∃ parsed, parseAttributes w (attributeBlock body) = .ok parsed ∧ ∃ hasIpv4Nlri announcesMp,
      parsed.intoAttributes hasIpv4Nlri announcesMp = .ok attrs := by
  simp only [BgpUpdateMessage.parseBodyWidth, ite_error_eq_ok, Checked.bind_def, bind_eq_ok] at h
  obtain ⟨-, a, ha, b, hb, -, withdrawnBytes, -, routes, -, hi, hhi, lo, hlo, hend, block, hblock,
    parsed, hparsed, nlriBytes, -, routes', -, h⟩ := h
  have hblock : block = attributeBlock body := by
    rw [Checked.slice_eq_ok (by omega) (by omega)] at hblock
    cases hblock
    rw [attributeBlock, wordAt_of_index ha hb, wordAt_of_index hhi hlo, List.drop_take,
      Nat.add_sub_cancel_left]
  refine ⟨parsed, hblock ▸ hparsed, ?_⟩
  split at h
  · obtain ⟨attrs', hattrs, h⟩ := bind_eq_ok.mp h
    cases h
    exact ⟨_, _, hattrs⟩
  · cases h

/-- The path an accepted UPDATE ends with: what AS_PATH says, or what AS4_PATH makes of it. -/
theorem asPath_of_parseBody {w : Bool} {body : List UInt8} {withdrawn nlri : List Ipv4Prefix}
    {attrs : BgpPathAttributes}
    (h : BgpUpdateMessage.parseBodyWidth body w = .ok ⟨withdrawn, some attrs, nlri⟩) :
    attrs.asPath = match pathAlone bgpAttrAs4Path true (attributeBlock body) with
      | some as4 => ((pathAlone bgpAttrAsPath w (attributeBlock body)).getD .empty).mergeAs4Path as4
      | none => (pathAlone bgpAttrAsPath w (attributeBlock body)).getD .empty := by
  obtain ⟨parsed, hparsed, hasIpv4Nlri, announcesMp, hinto⟩ := attributes_of_parseBody h
  obtain ⟨hpath, has4⟩ := parsed_paths hparsed
  simp only [ParsedAttributes.intoAttributes, Checked.bind_def, bind_eq_ok] at hinto
  obtain ⟨origin, -, asPath, hasPath, nextHop, -, hinto⟩ := hinto
  cases hinto
  rw [← has4, ← hpath]
  obtain rfl := demandAttribute_eq_ok hasPath
  rfl

/-! ### When AS4_PATH changes nothing -/

/-- Folding the path in leaves the other as it is: it is empty, longer than the other, one of the
two has a set, or it repeats the last hops of a path that is a single sequence. -/
def AsPath.Repeats (as4 p : AsPath) : Prop :=
  as4.flatten = [] ∨ p.flatten.length < as4.flatten.length ∨
    (∃ s ∈ p.segments ++ as4.segments, s.kind = .set) ∨
    p = .sequence p.flatten ∧ as4.flatten <:+ p.flatten

theorem mergeAs4Path_eq_self_iff {p as4 : AsPath} : p.mergeAs4Path as4 = p ↔ as4.Repeats p := by
  have hset : ((p.segments ++ as4.segments).any fun s => s.kind ≠ .sequence) = true ↔
      ∃ s ∈ p.segments ++ as4.segments, s.kind = .set := by
    rw [List.any_eq_true]
    refine exists_congr fun s => and_congr_right fun _ => ?_
    cases s.kind <;> simp
  unfold AsPath.mergeAs4Path AsPath.Repeats
  extract_lets narrow wide
  simp only [List.isEmpty_iff]
  split_ifs with hskip hsets
  · exact iff_of_true rfl (hskip.elim .inl fun h => .inr (.inl h))
  · exact iff_of_true rfl (.inr (.inr (.inl (hset.mp hsets))))
  · push Not at hskip
    have hsome : as4.flatten ≠ [] := hskip.1
    have hfits : ¬ p.flatten.length < as4.flatten.length := Nat.not_lt.mpr hskip.2
    simp only [hsome, hfits, mt hset.mpr hsets, false_or]
    constructor
    · intro heq
      have hflat : p.flatten = narrow.take (narrow.length - wide.length) ++ wide := by
        rw [← heq, flatten_sequence]
      exact ⟨by rw [hflat, heq], hflat ▸ List.suffix_append _ _⟩
    · rintro ⟨hone, pre, hpre⟩
      have htake : narrow.take (narrow.length - wide.length) = pre := by
        have hnarrow : narrow = pre ++ wide := hpre.symm
        rw [hnarrow, List.length_append, Nat.add_sub_cancel, List.take_left]
      rw [htake, hpre, ← hone]

/-- On a four-octet session an accepted UPDATE has the path of its AS_PATH alone exactly when the
AS4_PATH next to it, if there is one, changes nothing. -/
theorem as_path_alone_iff {body : List UInt8} {withdrawn nlri : List Ipv4Prefix}
    {attrs : BgpPathAttributes}
    (h : BgpUpdateMessage.parseBodyWidth body true = .ok ⟨withdrawn, some attrs, nlri⟩) :
    let asPath := (pathAlone bgpAttrAsPath true (attributeBlock body)).getD .empty
    attrs.asPath = asPath ↔
      ∀ as4, pathAlone bgpAttrAs4Path true (attributeBlock body) = some as4 →
      as4.Repeats asPath := by
  intro asPath
  rw [asPath_of_parseBody h]
  cases pathAlone bgpAttrAs4Path true (attributeBlock body) with
  | none => simp [asPath]
  | some as4 => simpa [asPath] using mergeAs4Path_eq_self_iff

/-- A path of two hops to 10.0.0.0/8, with an AS4_PATH of three. -/
theorem as_path_alone_longer :
    let body : List UInt8 := [0, 0, 0, 41, 0x40, 1, 1, 0,
      0x40, 2, 10, 2, 2, 0, 0, 0xFD, 0xE9, 0, 0, 0xFD, 0xEA, 0x40, 3, 4, 10, 0, 0, 1,
      0xC0, 17, 14, 2, 3, 0, 0, 0xFA, 0, 0, 0, 0xFA, 1, 0, 0, 0xFA, 2, 8, 10]
    (BgpPathAttributes.new .igp (.sequence [65001, 65002]) ⟨10, 0, 0, 1⟩).asPath =
      (pathAlone bgpAttrAsPath true (attributeBlock body)).getD .empty := by
  intro body
  have hparsed : BgpUpdateMessage.parseBodyWidth body true = .ok
      ⟨[], some (.new .igp (.sequence [65001, 65002]) ⟨10, 0, 0, 1⟩), [⟨⟨10, 0, 0, 0⟩, 8⟩]⟩ := by
    decide +kernel
  refine (as_path_alone_iff hparsed).mpr fun as4 has4 => ?_
  have hthree : pathAlone bgpAttrAs4Path true (attributeBlock body) =
      some (.sequence [64000, 64001, 64002]) := by decide +kernel
  obtain rfl := Option.some.inj (hthree.symm.trans has4)
  exact .inr (.inl (by decide +kernel))

/-- The path 65001 65002 to 10.0.0.0/8 through 10.0.0.1, and another last hop next to it. -/
def sampleAs4Body : List UInt8 :=
  [0, 0, 0, 33,
    0x40, 1, 1, 0,
    0x40, 2, 10, 2, 2, 0, 0, 0xFD, 0xE9, 0, 0, 0xFD, 0xEA,
    0x40, 3, 4, 10, 0, 0, 1,
    0xC0, 17, 6, 2, 1, 0, 0, 0xFA, 0x00,
    8, 10]

example : (attributeList (attributeBlock sampleAs4Body)).map Prod.fst = [1, 2, 3, 17] := by
  decide +kernel

theorem as4_path_replaces_hop :
    ∃ attrs, BgpUpdateMessage.parseBodyWidth sampleAs4Body true =
        .ok ⟨[], some attrs, [⟨⟨10, 0, 0, 0⟩, 8⟩]⟩ ∧
      pathAlone bgpAttrAsPath true (attributeBlock sampleAs4Body) =
        some (.sequence [65001, 65002]) ∧
      attrs.asPath = .sequence [65001, 64000] := by
  refine ⟨.new .igp (.sequence [65001, 64000]) ⟨10, 0, 0, 1⟩, ?_, ?_, ?_⟩ <;> decide +kernel

end ToyTcpip.Bgp
