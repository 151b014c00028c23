import ToyTcpip.Dns.Records

/-! Which host names survive the wire. -/
namespace ToyTcpip.Dns

open Checked (index slice bind_eq_ok ite_error_eq_ok slice_eq_ok)
open Tiled (readMany Fills readMany_eq_ok_iff)
open Utf8 (asBytes fromUtf8Lossy)

/-- The labels of a name, without the empty ones. -/
def labelsOf (name : String) : List String := (splitDots name).filter fun label => label ≠ ""

/-- The labels as `encode_qname` writes them. -/
def wireLabels (hostname : String) : List (List UInt8) := (labelsOf hostname).map asBytes

/-- Labels of at most 63 bytes, 255 with their lengths and the zero. -/
def Fits (hostname : String) : Prop :=
  (∀ label ∈ labelsOf hostname, (asBytes label).length ≤ 63) ∧
    1 + wireLength (wireLabels hostname) ≤ 255

variable {hostname name label target : String} {labels names : List String} {data post : List UInt8}
  {offset stop b : ℕ} {trail : List ℕ} {front back wires : List (List UInt8)}

/-! ### Labels and dots -/

theorem not_mem_of_mem_splitOn {α : Type} [BEq α] [LawfulBEq α] {a : α} {xs piece : List α}
    (h : piece ∈ xs.splitOn a) : a ∉ piece := by
  induction xs generalizing piece with
  | nil =>
    obtain rfl : piece = [] := by simpa using h
    simp
  | cons x xs ih =>
    rw [List.splitOn_cons_eq_if_modifyHead] at h
    split_ifs at h with hx
    · rcases List.mem_cons.mp h with rfl | h
      · simp
      · exact ih h
    · obtain ⟨head, rest, hsplit⟩ := List.exists_cons_of_ne_nil (List.splitOn_ne_nil a xs)
      rw [hsplit, List.modifyHead_cons] at h
      rcases List.mem_cons.mp h with rfl | h
      · have hhead := ih (hsplit ▸ List.mem_cons_self)
        intro hmem
        rcases List.mem_cons.mp hmem with rfl | hmem
        · simp at hx
        · exact hhead hmem
      · exact ih (hsplit ▸ List.mem_cons_of_mem _ h)

theorem splitDots_of_mem (h : label ∈ splitDots name) : splitDots label = [label] := by
  obtain ⟨piece, hpiece, rfl⟩ := List.mem_map.mp h
  rw [splitDots, String.toList_ofList,
    List.splitOn_eq_singleton (not_mem_of_mem_splitOn hpiece), List.map_singleton]

theorem splitDots_append_dot (s t : String) :
    splitDots (s ++ "." ++ t) = splitDots s ++ splitDots t := by
  rw [splitDots, String.toList_append, String.toList_append, List.append_assoc]
  change List.map _ ((s.toList ++ '.' :: t.toList).splitOn '.') = _
  rw [List.splitOn_append_cons_self, List.map_append]
  rfl

theorem labelsOf_intercalate : labelsOf (".".intercalate names) = names.flatMap labelsOf := by
  induction names with
  | nil => decide
  | cons name rest ih =>
    cases rest with
    | nil => simp
    | cons next rest =>
      rw [String.intercalate_cons_cons, List.flatMap_cons, ← ih]
      simp only [labelsOf]
      rw [splitDots_append_dot, List.filter_append]

theorem labelsOf_of_mem (h : label ∈ labelsOf name) : labelsOf label = [label] := by
  obtain ⟨hsplit, hne⟩ := List.mem_filter.mp h
  rw [labelsOf, splitDots_of_mem hsplit]
  exact List.filter_eq_self.mpr (List.forall_mem_singleton.mpr hne)

/-- The name without its empty labels has the same labels. -/
theorem labelsOf_canonical : labelsOf (".".intercalate (labelsOf name)) = labelsOf name := by
  rw [labelsOf_intercalate]
  have hmap : (labelsOf name).flatMap labelsOf = (labelsOf name).flatMap fun label => [label] :=
    List.flatMap_congr fun label h => labelsOf_of_mem h
  rw [hmap, List.flatMap_singleton']

theorem length_le_intercalate (h : name ∈ names) :
    (asBytes name).length ≤ (asBytes (".".intercalate names)).length := by
  induction names with
  | nil => cases h
  | cons first rest ih =>
    cases rest with
    | nil =>
      obtain rfl := List.mem_singleton.mp h
      simp
    | cons next rest =>
      rw [String.intercalate_cons_cons, Utf8.asBytes_append, Utf8.asBytes_append,
        List.length_append, List.length_append]
      rcases List.mem_cons.mp h with rfl | h
      · omega
      · have := ih h
        omega

/-- A label is no longer than its name. -/
theorem length_label_le (h : label ∈ labelsOf name) :
    (asBytes label).length ≤ (asBytes name).length := by
  have hle := length_le_intercalate (List.mem_filter.mp h).1
  rwa [intercalate_splitDots] at hle

/-! ### Writing and reading a name -/

theorem encodeQname_eq_wire : encodeQname hostname = encodeLabels (wireLabels hostname) ++ [0] := by
  rw [encodeQname, ToyTcpip.encodeQname_eq, wireLabels, encodeLabels, List.flatMap_map]
  rfl

theorem ne_empty_of_mem (h : label ∈ labelsOf name) : label ≠ "" :=
  of_decide_eq_true (List.mem_filter.mp h).2

theorem pos_of_mem_wireLabels {wire : List UInt8} (h : wire ∈ wireLabels hostname) :
    0 < wire.length := by
  obtain ⟨label, hlabel, rfl⟩ := List.mem_map.mp h
  exact List.length_pos_iff.mpr fun hnil => ne_empty_of_mem hlabel (Utf8.asBytes_eq_nil.mp hnil)

theorem short_of_fits (h : ∀ label ∈ labelsOf hostname, (asBytes label).length ≤ 63) :
    Short (wireLabels hostname) := by
  intro wire hwire
  refine ⟨pos_of_mem_wireLabels hwire, ?_⟩
  obtain ⟨label, hlabel, rfl⟩ := List.mem_map.mp hwire
  have := h label hlabel
  omega

theorem lossy_wireLabels : (wireLabels hostname).map fromUtf8Lossy = labelsOf hostname := by
  rw [wireLabels, List.map_map]
  refine (List.map_congr_left fun label _ => ?_).trans (List.map_id _)
  exact Utf8.fromUtf8Lossy_of_valid (Utf8.fromUtf8_asBytes label)

/-- The name that comes back. -/
def canonicalHost (hostname : String) : String := ".".intercalate (labelsOf hostname)

theorem expands_encodeQname (hfits : Fits hostname)
    (h : data.drop offset = encodeQname hostname ++ post) :
    (∃ trail, Expands data offset trail (wireLabels hostname)) ∧
      literalEnd data offset = offset + (encodeQname hostname).length := by
  rw [encodeQname_eq_wire, List.append_assoc, List.singleton_append] at h
  obtain ⟨hexpands, hend⟩ := expands_plain (short_of_fits hfits.1) h
  refine ⟨hexpands, hend.trans ?_⟩
  rw [encodeQname_eq_wire, List.length_append]
  rfl

theorem decodeQname_of_expands (hfits : Fits hostname)
    (h : Expands data offset trail (wireLabels hostname)) :
    decodeQname data offset = .ok (canonicalHost hostname, literalEnd data offset) :=
  decodeQname_eq_ok_iff.mpr ⟨trail, _, h, hfits.2, by rw [lossy_wireLabels]; rfl, rfl⟩

theorem decodeQname_encodeQname (hfits : Fits hostname)
    (h : data.drop offset = encodeQname hostname ++ post) :
    decodeQname data offset = .ok (canonicalHost hostname,
      offset + (encodeQname hostname).length) := by
  obtain ⟨⟨trail, hexpands⟩, hend⟩ := expands_encodeQname hfits h
  rw [decodeQname_of_expands hfits hexpands, hend]

/-! ### Names that do not fit -/

theorem Expands.short (h : Expands data offset trail wires) : Short wires := by
  induction h with
  | stop => simp [Short]
  | label h hpos hshort hend _ ih =>
    have hlen : ∀ n, n ≤ data.length → (data.drop n).length = data.length - n :=
      fun n _ => List.length_drop
    refine Short.cons ?_ ?_ ih
    · rw [List.length_take, hlen _ (by omega)]
      omega
    · rw [List.length_take]
      omega
  | pointer _ _ _ _ ih => exact ih

/-- Labels that are spelled out cannot be walked past. -/
theorem Expands.strip {rest : List UInt8} (hfront : Short front)
    (h : data.drop offset = encodeLabels front ++ rest) (hexp : Expands data offset trail wires) :
    ∃ trail' wires', Expands data (offset + (encodeLabels front).length) trail' wires' := by
  induction front generalizing offset trail wires with
  | nil => exact ⟨trail, wires, hexp⟩
  | cons label front ih =>
    obtain ⟨hpos, hshort⟩ := hfront label List.mem_cons_self
    rw [encodeLabels_cons, List.cons_append, List.append_assoc] at h
    obtain ⟨hbyte, -, -, hdrop⟩ := byte_of_drop h
    have hlen := toNat_ofNat_short hshort
    have hsum : offset + (encodeLabels (label :: front)).length =
        offset + 1 + label.length + (encodeLabels front).length := by
      rw [encodeLabels_cons, List.length_cons, List.length_append]
      omega
    rw [hsum]
    cases hexp with
    | stop h' =>
      rw [hbyte] at h'
      rw [Option.some.inj h', UInt8.toNat_zero] at hlen
      omega
    | label h' _ _ _ rest =>
      rw [hbyte] at h'
      cases h'
      rw [hlen] at rest
      exact ih (fun l hl => hfront l (List.mem_cons_of_mem _ hl)) hdrop rest
    | pointer h' hbig =>
      rw [hbyte] at h'
      cases h'
      omega

theorem not_expands_reserved {len : UInt8} (h : data[offset]? = some len) (hlow : 64 ≤ len.toNat)
    (hhigh : len.toNat < 192) : ¬ Expands data offset trail wires := by
  intro hexp
  cases hexp with
  | stop h' =>
    rw [h] at h'
    cases h'
    simp at hlow
  | label h' _ hshort =>
    rw [h] at h'
    cases h'
    omega
  | pointer h' hbig =>
    rw [h] at h'
    cases h'
    omega

/-- A list with a long label has a first one. -/
theorem first_long (h : ∃ wire ∈ wires, 64 ≤ wire.length) (hpos : ∀ wire ∈ wires, 0 < wire.length) :
    ∃ front wire back, wires = front ++ wire :: back ∧ Short front ∧ 64 ≤ wire.length := by
  induction wires with
  | nil => simp at h
  | cons first rest ih =>
    by_cases hlong : 64 ≤ first.length
    · exact ⟨[], first, rest, rfl, by simp [Short], hlong⟩
    · obtain ⟨wire, hmem, hwire⟩ := h
      have hrest : ∃ wire ∈ rest, 64 ≤ wire.length := by
        rcases List.mem_cons.mp hmem with rfl | hmem
        · exact absurd hwire hlong
        · exact ⟨wire, hmem, hwire⟩
      obtain ⟨front, wire, back, rfl, hfront, hwire⟩ :=
        ih hrest fun wire hw => hpos wire (List.mem_cons_of_mem _ hw)
      exact ⟨first :: front, wire, back, rfl,
        hfront.cons (hpos first List.mem_cons_self) (by omega), hwire⟩

/-- What is decoded has labels of at most 189 bytes. -/
theorem label_le_of_expands (h : Expands data offset trail wires)
    (hlabel : label ∈ labelsOf (".".intercalate (wires.map fromUtf8Lossy))) :
    (asBytes label).length ≤ 189 := by
  rw [labelsOf_intercalate] at hlabel
  obtain ⟨text, htext, hlabel⟩ := List.mem_flatMap.mp hlabel
  obtain ⟨wire, hwire, rfl⟩ := List.mem_map.mp htext
  have hle := length_label_le hlabel
  have hlossy := Utf8.length_fromUtf8Lossy_le wire
  have hshort := (h.short wire hwire).2
  omega

/-- A name that comes back fits. -/
theorem fits_of_decodeQname (h : data.drop offset = encodeQname hostname ++ post)
    (hdecode : decodeQname data offset = .ok (name, stop))
    (hlabels : labelsOf name = labelsOf hostname) : Fits hostname := by
  obtain ⟨trail, wires, hexpands, hwire, rfl, -⟩ := decodeQname_eq_ok_iff.mp hdecode
  rw [encodeQname_eq_wire, List.append_assoc, List.singleton_append] at h
  by_cases hlong : ∃ wire ∈ wireLabels hostname, 64 ≤ wire.length
  · exfalso
    obtain ⟨front, wire, back, hsplit, hfront, hwirelen⟩ :=
      first_long hlong fun wire hw => pos_of_mem_wireLabels hw
    have hmem : wire ∈ wireLabels hostname := by simp [hsplit]
    obtain ⟨label, hlabel, rfl⟩ := List.mem_map.mp hmem
    have hbound := label_le_of_expands hexpands (hlabels ▸ hlabel)
    have hdrop : data.drop offset = encodeLabels front ++
        encodeLabels (asBytes label :: back) ++ 0 :: post := by
      rw [h, hsplit, encodeLabels, List.flatMap_append]
      rfl
    rw [List.append_assoc] at hdrop
    obtain ⟨trail', wires', hthere⟩ := hexpands.strip hfront hdrop
    have hbyte : data[offset + (encodeLabels front).length]? =
        some (UInt8.ofNat (asBytes label).length) := by
      rw [← List.head?_drop, drop_add_length hdrop]
      rfl
    have hlen : (UInt8.ofNat (asBytes label).length).toNat = (asBytes label).length := by
      rw [UInt8.toNat_ofNat']
      omega
    exact not_expands_reserved hbyte (by omega) (by omega) hthere
  · push Not at hlong
    have hshort : ∀ label ∈ labelsOf hostname, (asBytes label).length ≤ 63 := by
      intro label hlabel
      have := hlong _ (List.mem_map_of_mem hlabel)
      omega
    obtain ⟨⟨trail', hexpands'⟩, -⟩ := expands_plain (short_of_fits hshort) h
    obtain ⟨-, rfl⟩ := hexpands.unique hexpands'
    exact ⟨hshort, hwire⟩

/-! ### Messages -/

open DnsMessage

variable {body rdata rest : List UInt8} {id flags ancount qtype rtype : BitVec 16} {ttl : BitVec 32}
  {q : DnsQuestion} {found : DnsRecordData}

theorem length_header : (header id flags ancount).length = 12 := rfl

theorem drop_header : (header id flags ancount ++ body).drop 12 = body := rfl

/-- Behind the header stand one question and the announced answers. -/
theorem parse_header_iff {P : List DnsQuestion → List DnsAnswer → Prop}
    (hdata : data = header id flags ancount ++ body) :
    (∃ m, DnsMessage.parse data = .ok m ∧ P m.questions m.answers) ↔
      ∃ q s answers e, parseQuestion data 12 = .ok (q, s) ∧
        Fills (parseResourceRecord data) s answers e ∧ answers.length = ancount.toNat ∧
        P [q] answers := by
  have hlen : ¬ data.length < 12 := by
    rw [hdata, List.length_append, length_header]
    omega
  have hid : (read16 data 0 : Parsed _) = .ok id := by
    rw [hdata]
    exact read16_of_drop rfl
  have hflags : (read16 data 2 : Parsed _) = .ok flags := by
    rw [hdata]
    exact read16_of_drop rfl
  have hqdcount : (read16 data 4 : Parsed _) = .ok 1 := by
    rw [hdata]
    exact read16_of_drop rfl
  have hancount : (read16 data 6 : Parsed _) = .ok ancount := by
    rw [hdata]
    exact read16_of_drop rfl
  have hnscount : (read16 data 8 : Parsed _) = .ok 0 := by
    rw [hdata]
    exact read16_of_drop rfl
  have harcount : (read16 data 10 : Parsed _) = .ok 0 := by
    rw [hdata]
    exact read16_of_drop rfl
  rw [DnsMessage.parse, if_neg hlen]
  simp only [Checked.bind_def, hid, hflags, hqdcount, hancount, hnscount, harcount, Checked.ok_bind]
  constructor
  · rintro ⟨m, h, hP⟩
    obtain ⟨⟨questions, s⟩, hquestions, h⟩ := bind_eq_ok.mp h
    obtain ⟨⟨answers, e⟩, hanswers, h⟩ := bind_eq_ok.mp h
    obtain ⟨authorities, -, h⟩ := bind_eq_ok.mp h
    obtain ⟨additionals, -, h⟩ := bind_eq_ok.mp h
    cases h
    obtain ⟨hone, hfills⟩ := readMany_eq_ok_iff.mp hquestions
    obtain ⟨hcount, hrecords⟩ := readMany_eq_ok_iff.mp hanswers
    cases hfills with
    | nil => cases hone
    | cons first others =>
      cases others with
      | nil => exact ⟨_, _, _, _, first, hrecords, hcount, hP⟩
      | cons => cases hone
  · rintro ⟨q, s, answers, e, hquestion, hrecords, hcount, hP⟩
    have hquestions : readMany (parseQuestion data) (1 : BitVec 16).toNat 12 = .ok ([q], s) :=
      readMany_eq_ok_iff.mpr ⟨rfl, .cons hquestion .nil⟩
    have hanswers := readMany_eq_ok_iff.mpr ⟨hcount, hrecords⟩
    rw [hquestions, Checked.ok_bind, hanswers]
    exact ⟨_, rfl, hP⟩

/-- The question is read back when its name fits, and only then. -/
theorem parseQuestion_of_drop (hfits : Fits hostname)
    (h : data.drop offset = question hostname qtype ++ rest) :
    parseQuestion data offset = .ok (⟨canonicalHost hostname, qtype, dnsClassIn⟩,
      offset + (question hostname qtype).length) := by
  rw [question, List.append_assoc, List.append_assoc] at h
  have htype := drop_add_length h
  have hclass := drop_add_length htype
  have hlen := congrArg List.length htype
  rw [List.length_drop, List.length_append, List.length_append] at hlen
  change _ = 2 + (2 + _) at hlen
  rw [parseQuestion, decodeQname_encodeQname hfits h, Checked.ok_bind,
    if_neg (by dsimp only; omega), read16_of_drop htype, Checked.ok_bind]
  dsimp only
  rw [show offset + (encodeQname hostname).length + 2 = offset + (encodeQname hostname).length +
    (toBeBytes16 qtype.toNat).length from rfl, read16_of_drop hclass, Checked.ok_bind, question,
    List.length_append]
  rfl

theorem fits_of_parseQuestion (h : data.drop offset = question hostname qtype ++ rest)
    (hparse : parseQuestion data offset = .ok (q, stop))
    (hlabels : labelsOf q.name = labelsOf hostname) : Fits hostname := by
  rw [question, List.append_assoc] at h
  obtain ⟨name, hname, hparse⟩ := bind_eq_ok.mp hparse
  obtain ⟨-, hparse⟩ := ite_error_eq_ok.mp hparse
  obtain ⟨qtype, -, hparse⟩ := bind_eq_ok.mp hparse
  obtain ⟨qclass, -, hparse⟩ := bind_eq_ok.mp hparse
  cases hparse
  exact fits_of_decodeQname h hname hlabels

theorem toBeBytes16_ofNat (n : ℕ) : toBeBytes16 (BitVec.ofNat 16 n).toNat = toBeBytes16 n := by
  rw [BitVec.toNat_ofNat]
  simp only [toBeBytes16, List.cons.injEq, and_true]
  constructor
  · apply UInt8.toNat_inj.mp
    simp only [UInt8.toNat_ofNat']
    omega
  · apply UInt8.toNat_inj.mp
    simp only [UInt8.toNat_ofNat']
    omega

/-- Where the answer of a built response starts. -/
def answerStart (hostname : String) (rtype : BitVec 16) : ℕ := 12 + (question hostname rtype).length

/-- The pointer at `offset` leads back to the question's name. -/
theorem decodeQname_pointer (hfits : Fits hostname)
    (hhost : data.drop 12 = encodeQname hostname ++ post)
    (h : data.drop offset = 0xC0 :: 12 :: rest) :
    decodeQname data offset = .ok (canonicalHost hostname, offset + 2) := by
  obtain ⟨⟨trail, hexpands⟩, -⟩ := expands_encodeQname hfits hhost
  have hhi : data[offset]? = some 0xC0 := by rw [← List.head?_drop, h, List.head?_cons]
  have hlow : data[offset + 1]? = some 12 := by
    rw [← List.head?_drop, Checked.drop_succ_of_drop h, List.head?_cons]
  rw [decodeQname_of_expands hfits (.pointer hhi (by decide) hlow hexpands),
    literalEnd_pointer hhi (by decide)]

/-- A record is read back up to its RDATA. -/
theorem parseResourceRecord_of_drop {s : ℕ} {rclass rdlength : BitVec 16}
    (hname : decodeQname data offset = .ok (name, s))
    (h : data.drop s = toBeBytes16 rtype.toNat ++ (toBeBytes16 rclass.toNat ++
      (toBeBytes32 ttl.toNat ++
      (toBeBytes16 rdlength.toNat ++ rdata)))) (hle : rdlength.toNat ≤ rdata.length) :
    data.drop (s + 10) = rdata ∧
    parseResourceRecord data offset =
      (parseRdata data rtype rclass ttl (s + 10) (rdata.take rdlength.toNat)).bind fun parsed =>
        .ok (⟨name, rtype, rclass, ttl, legacyIp parsed, parsed⟩, s + 10 + rdlength.toNat) := by
  have hclass : data.drop (s + 2) = _ := drop_add_length h
  have httl : data.drop (s + 4) = _ := drop_add_length hclass
  have hlength : data.drop (s + 8) = _ := drop_add_length httl
  have hrdata : data.drop (s + 10) = _ := drop_add_length hlength
  have htotal := congrArg List.length h
  simp only [List.length_drop, List.length_append] at htotal
  change _ = 2 + (2 + (4 + (2 + rdata.length))) at htotal
  refine ⟨hrdata, ?_⟩
  rw [parseResourceRecord, hname, Checked.ok_bind, if_neg (by dsimp only; omega), read16_of_drop h,
    Checked.ok_bind, read16_of_drop hclass, Checked.ok_bind, read32_of_drop httl, Checked.ok_bind,
    read16_of_drop hlength, Checked.ok_bind, if_neg (by dsimp only; omega),
    slice_eq_ok (by omega) (by dsimp only; omega), Checked.ok_bind, List.drop_take, hrdata,
    Nat.add_sub_cancel_left]

theorem parseResourceRecord_built {id : BitVec 16} (hfits : Fits hostname)
    (hdata : data = buildAnswer id hostname rtype ttl rdata) :
    data.drop (answerStart hostname rtype + 12) = rdata ∧
    parseResourceRecord data (answerStart hostname rtype) =
      (parseRdata data rtype dnsClassIn ttl (answerStart hostname rtype + 12)
        (rdata.take (rdata.length % 65536))).bind fun parsed =>
          .ok (⟨canonicalHost hostname, rtype, dnsClassIn, ttl, legacyIp parsed, parsed⟩,
            answerStart hostname rtype + 12 + rdata.length % 65536) := by
  have hbody : data.drop 12 = question hostname rtype ++ ([0xC0, 12] ++ (toBeBytes16 rtype.toNat ++
      (toBeBytes16 dnsClassIn.toNat ++ (toBeBytes32 ttl.toNat ++
        (toBeBytes16 (BitVec.ofNat 16 rdata.length).toNat ++ rdata))))) := by
    rw [toBeBytes16_ofNat, hdata]
    rfl
  have hname : data.drop (answerStart hostname rtype) = _ := drop_add_length hbody
  rw [question, List.append_assoc] at hbody
  have hdecode := decodeQname_pointer hfits hbody hname
  have hfields : data.drop (answerStart hostname rtype + 2) = _ := drop_add_length hname
  have hmod : (BitVec.ofNat 16 rdata.length).toNat = rdata.length % 65536 := BitVec.toNat_ofNat _ _
  have hspec := parseResourceRecord_of_drop hdecode hfields (hmod.trans_le (Nat.mod_le _ _))
  rwa [hmod] at hspec

/-- What a message that was built has to come back as. -/
def Survived (hostname : String) (answers : ℕ) (target : Option String)
    (questions : List DnsQuestion) (records : List DnsAnswer) : Prop :=
  (∃ q, questions = [q] ∧ labelsOf q.name = labelsOf hostname) ∧ records.length = answers ∧
    ∀ r ∈ records, labelsOf r.name = labelsOf hostname ∧
      r.data.names.map labelsOf = target.toList.map labelsOf

def RoundTrips (bytes : List UInt8) (hostname : String) (answers : ℕ)
    (target : Option String) : Prop :=
  ∃ m, DnsMessage.parse bytes = .ok m ∧ Survived hostname answers target m.questions m.answers

variable {named : Option String}

theorem roundTrips_question :
    RoundTrips (header id flags 0 ++ question hostname qtype) hostname 0 named ↔ Fits hostname := by
  have hdrop : (header id flags 0 ++ question hostname qtype).drop 12 =
      question hostname qtype ++ [] := by
    rw [drop_header, List.append_nil]
  rw [RoundTrips, parse_header_iff rfl]
  constructor
  · rintro ⟨q, s, answers, e, hquestion, -, -, ⟨q', hone, hlabels⟩, -⟩
    cases hone
    exact fits_of_parseQuestion hdrop hquestion hlabels
  · intro hfits
    exact ⟨_, _, [], _, parseQuestion_of_drop hfits hdrop, .nil, rfl,
      ⟨_, rfl, labelsOf_canonical⟩, rfl, by simp⟩

/-- A built answer comes back when the host name fits and its RDATA is read as it was meant. -/
theorem roundTrips_answer :
    RoundTrips (buildAnswer id hostname rtype ttl rdata) hostname 1 named ↔ Fits hostname ∧
      ∃ found, parseRdata (buildAnswer id hostname rtype ttl rdata) rtype dnsClassIn ttl
        (answerStart hostname rtype + 12) (rdata.take (rdata.length % 65536)) = .ok found ∧
        found.names.map labelsOf = named.toList.map labelsOf := by
  have hdrop : (buildAnswer id hostname rtype ttl rdata).drop 12 = question hostname rtype ++ _ :=
    rfl
  have hdata : buildAnswer id hostname rtype ttl rdata = header id 0x8180 1 ++ _ := rfl
  rw [RoundTrips, parse_header_iff hdata]
  constructor
  · rintro ⟨q, s, answers, e, hquestion, hrecords, hcount, ⟨q', hone, hlabels⟩, -, hanswers⟩
    cases hone
    have hfits := fits_of_parseQuestion hdrop hquestion hlabels
    rw [parseQuestion_of_drop hfits hdrop] at hquestion
    cases hquestion
    cases hrecords with
    | nil => cases hcount
    | @cons _ _ _ r _ first others =>
      change parseResourceRecord _ (answerStart hostname rtype) = _ at first
      rw [(parseResourceRecord_built hfits rfl).2] at first
      obtain ⟨found, hfound, first⟩ := bind_eq_ok.mp first
      cases first
      exact ⟨hfits, found, hfound, (hanswers _ List.mem_cons_self).2⟩
  · rintro ⟨hfits, found, hfound, hnames⟩
    have hbuilt : buildAnswer id hostname rtype ttl rdata =
      buildAnswer id hostname rtype ttl rdata := rfl
    have hrecord := (parseResourceRecord_built hfits hbuilt).2
    rw [hfound, Checked.ok_bind] at hrecord
    refine ⟨_, _, [_], _, parseQuestion_of_drop hfits hdrop, .cons hrecord .nil, rfl,
      ⟨_, rfl, labelsOf_canonical⟩, rfl, ?_⟩
    rw [List.forall_mem_singleton]
    exact ⟨labelsOf_canonical, hnames⟩

theorem parseTexts_ok (off : ℕ) : ∃ texts, parseTexts rdata off = .ok texts := by
  fun_induction parseTexts rdata off with
  | case1 off hlt ih =>
    rw [Checked.index_eq_ok.mpr (List.getElem?_eq_getElem hlt), Checked.ok_bind]
    split_ifs with hroom
    · obtain ⟨texts, htexts⟩ := ih _ hroom
      rw [slice_eq_ok (by omega) hroom, Checked.ok_bind, htexts]
      exact ⟨_, rfl⟩
    · exact ⟨_, rfl⟩
  | case2 => exact ⟨_, rfl⟩

/-- An answer without names comes back when the host name fits. -/
theorem roundTrips_nameless
    (h : ∀ data start, ∃ found, parseRdata data rtype dnsClassIn ttl start
      (rdata.take (rdata.length % 65536)) = .ok found ∧ found.names = []) :
    RoundTrips (buildAnswer id hostname rtype ttl rdata) hostname 1 none ↔ Fits hostname := by
  rw [roundTrips_answer]
  constructor
  · exact fun h => h.1
  · intro hfits
    obtain ⟨found, hfound, hnames⟩ := h (buildAnswer id hostname rtype ttl rdata)
      (answerStart hostname rtype + 12)
    exact ⟨hfits, found, hfound, by rw [hnames]; rfl⟩

/-- An answer with a name behind some fixed fields comes back when both names fit. -/
theorem roundTrips_named {pre : List UInt8} (hpre : pre.length ≤ 6)
    (hfields : ∀ n, nameFields rtype n = (pre.length, 1) ∨ (nameFields rtype n).2 = 0)
    (hread : ∀ data start name stop, decodeQname data (start + pre.length) = .ok (name, stop) →
      ∃ found, parseRdata data rtype dnsClassIn ttl start (pre ++ encodeQname target) = .ok found ∧
        found.names = [name]) :
    RoundTrips (buildAnswer id hostname rtype ttl (pre ++ encodeQname target)) hostname 1
      (some target) ↔
      Fits hostname ∧ Fits target := by
  rw [roundTrips_answer]
  have hrdata : ∀ hfits : Fits hostname, (buildAnswer id hostname rtype ttl
    (pre ++ encodeQname target)).drop
      (answerStart hostname rtype + 12) = pre ++ (encodeQname target ++ []) := by
    intro hfits
    rw [(parseResourceRecord_built hfits rfl).1, List.append_nil]
  constructor
  · rintro ⟨hfits, found, hfound, hnames⟩
    refine ⟨hfits, ?_⟩
    obtain ⟨names, stop, hfills, hcount, hfoundnames, -⟩ := parseRdata_spec hfound
    obtain ⟨name, hname, hlabels⟩ : ∃ name, found.names = [name] ∧
        labelsOf name = labelsOf target := by
      cases hlist : found.names with
      | nil => simp [hlist] at hnames
      | cons name rest =>
        cases rest with
        | nil => exact ⟨name, rfl, by simpa [hlist] using hnames⟩
        | cons => simp [hlist] at hnames
    obtain rfl : found.names = names := by
      rcases hfoundnames with h | h
      · exact h
      · rw [h] at hname
        cases hname
    rw [hname] at hfills hcount
    rcases hfields ((pre ++ encodeQname target).take
      ((pre ++ encodeQname target).length % 65536)).length
      with hone | hzero
    · rw [hone] at hfills
      cases hfills with
      | cons first others =>
        exact fits_of_decodeQname (drop_add_length (hrdata hfits)) first hlabels
    · rw [hzero] at hcount
      cases hcount
  · rintro ⟨hfits, htarget⟩
    refine ⟨hfits, ?_⟩
    have hlen : (pre ++ encodeQname target).length < 65536 := by
      have hwire : (encodeQname target).length = 1 + wireLength (wireLabels target) := by
        rw [encodeQname_eq_wire, List.length_append, encodeLabels, List.length_flatMap]
        simp [wireLength, Nat.add_comm]
      have := htarget.2
      rw [List.length_append]
      omega
    rw [Nat.mod_eq_of_lt hlen, List.take_length]
    obtain ⟨found, hfound, hnames⟩ := hread _ _ _ _
      (decodeQname_encodeQname htarget (drop_add_length (hrdata hfits)))
    exact ⟨found, hfound, by rw [hnames]; exact congrArg (· :: []) labelsOf_canonical⟩

theorem parseRdata_txt {rclass : BitVec 16} {start : ℕ} :
    ∃ found, parseRdata data dnsTypeTxt rclass ttl start rdata = .ok found ∧ found.names = [] := by
  obtain ⟨texts, htexts⟩ := @parseTexts_ok rdata 0
  refine ⟨.txt texts, ?_, rfl⟩
  simp [parseRdata, dnsTypeA, dnsTypeAaaa, dnsTypeCname, dnsTypePtr, dnsTypeNs,
    dnsTypeMx, dnsTypeTxt, htexts]

theorem parseRdata_mx {rclass preference : BitVec 16} {start : ℕ} :
    parseRdata data dnsTypeMx rclass ttl start (toBeBytes16 preference.toNat ++ rest) =
      (decodeQname data (start + 2)).bind fun exchange => .ok (.mx preference exchange.1) := by
  have hpreference : (read16 (toBeBytes16 preference.toNat ++ rest) 0 : Parsed _) =
      .ok preference :=
    read16_of_drop rfl
  have hlen : 2 ≤ (toBeBytes16 preference.toNat ++ rest).length := by
    rw [List.length_append]
    exact Nat.le_add_right _ _
  generalize toBeBytes16 preference.toNat ++ rest = rdata at hpreference hlen ⊢
  simp [parseRdata, dnsTypeA, dnsTypeAaaa, dnsTypeCname, dnsTypePtr, dnsTypeNs, dnsTypeMx, hlen,
    hpreference]

theorem parseRdata_srv {rclass priority weight port : BitVec 16} {start : ℕ} :
    parseRdata data dnsTypeSrv rclass ttl start (toBeBytes16 priority.toNat ++
      (toBeBytes16 weight.toNat ++ (toBeBytes16 port.toNat ++ rest))) =
      (decodeQname data (start + 6)).bind fun target =>
        .ok (.srv priority weight port target.1) := by
  generalize hrdata : toBeBytes16 priority.toNat ++
    (toBeBytes16 weight.toNat ++ (toBeBytes16 port.toNat ++ rest)) = rdata
  have hpriority : (read16 rdata 0 : Parsed _) = .ok priority := by
    rw [← hrdata]
    exact read16_of_drop rfl
  have hweight : (read16 rdata 2 : Parsed _) = .ok weight := by
    rw [← hrdata]
    exact read16_of_drop rfl
  have hport : (read16 rdata 4 : Parsed _) = .ok port := by
    rw [← hrdata]
    exact read16_of_drop rfl
  have hlen : 6 ≤ rdata.length := by
    rw [← hrdata, ← List.append_assoc, ← List.append_assoc, List.length_append]
    exact Nat.le_add_right _ _
  simp [parseRdata, dnsTypeA, dnsTypeAaaa, dnsTypeCname, dnsTypePtr, dnsTypeNs,
    dnsTypeMx, dnsTypeTxt, dnsTypeSrv, hlen, hpriority, hweight, hport]

/-- A message that can be built. -/
inductive Build where
  | query (id : BitVec 16) (hostname : String) (qtype : BitVec 16)
  | nxdomain (id : BitVec 16) (hostname : String) (qtype : BitVec 16)
  | response (id : BitVec 16) (hostname : String) (ip : Ipv4Address) (ttl : BitVec 32)
  | aaaa (id : BitVec 16) (hostname : String) (ip : Ipv6Address) (ttl : BitVec 32)
  | cname (id : BitVec 16) (hostname target : String) (ttl : BitVec 32)
  | ptr (id : BitVec 16) (ptrName target : String) (ttl : BitVec 32)
  | txt (id : BitVec 16) (hostname : String) (texts : List String) (ttl : BitVec 32)
  | mx (id : BitVec 16) (hostname : String) (preference : BitVec 16) (exchange : String)
      (ttl : BitVec 32)
  | srv (id : BitVec 16) (hostname : String) (priority weight port : BitVec 16) (target : String)
      (ttl : BitVec 32)

namespace Build

def bytes : Build → List UInt8
  | query id hostname qtype => buildTypedQuery id hostname qtype
  | nxdomain id hostname qtype => buildNxdomainResponse id hostname qtype
  | response id hostname ip ttl => buildResponse id hostname ip ttl
  | aaaa id hostname ip ttl => buildAaaaResponse id hostname ip ttl
  | cname id hostname target ttl => buildCnameResponse id hostname target ttl
  | ptr id ptrName target ttl => buildPtrResponse id ptrName target ttl
  | txt id hostname texts ttl => buildTxtResponse id hostname texts ttl
  | mx id hostname preference exchange ttl => buildMxResponse id hostname preference exchange ttl
  | srv id hostname priority weight port target ttl =>
    buildSrvResponse id hostname priority weight port target ttl

def host : Build → String
  | query _ hostname _ | nxdomain _ hostname _ | response _ hostname _ _ | aaaa _ hostname _ _
  | cname _ hostname _ _ | ptr _ hostname _ _ | txt _ hostname _ _ | mx _ hostname _ _ _
  | srv _ hostname _ _ _ _ _ => hostname

/-- The name in the RDATA. -/
def given : Build → Option String
  | cname _ _ target _ | ptr _ _ target _ | mx _ _ _ target _
  | srv _ _ _ _ _ target _ => some target
  | _ => none

def answers : Build → ℕ
  | query .. | nxdomain .. => 0
  | _ => 1

/-- Nothing more is asked for without a name in the RDATA. -/
theorem and_forall_none {P : Prop} : P ↔ P ∧ ∀ name ∈ (none : Option String), Fits name := by
  simp

theorem and_forall_some {P : Prop} : P ∧ Fits target ↔ P ∧ ∀ name ∈ some target, Fits name := by
  simp

theorem roundTrips_iff (b : Build) : RoundTrips b.bytes b.host b.answers b.given ↔
    Fits b.host ∧ ∀ name ∈ b.given, Fits name := by
  cases b with
  | query id hostname qtype => exact roundTrips_question.trans and_forall_none
  | nxdomain id hostname qtype => exact roundTrips_question.trans and_forall_none
  | response id hostname ip ttl =>
    refine Iff.trans (roundTrips_nameless fun data start => ?_) and_forall_none
    exact ⟨.a ip, rfl, rfl⟩
  | aaaa id hostname ip ttl =>
    refine Iff.trans (roundTrips_nameless fun data start => ?_) and_forall_none
    rw [Ipv6Address.length_octets, List.take_of_length_le (by simp)]
    exact ⟨.aaaa (ipv6At ip.octets 0), by simp [parseRdata, dnsTypeA, dnsTypeAaaa], rfl⟩
  | cname id hostname target ttl =>
    refine Iff.trans (@roundTrips_named hostname target id dnsTypeCname ttl [] (by decide)
      (fun n => .inl rfl) ?_) and_forall_some
    intro data start name stop hname
    change decodeQname data start = _ at hname
    exact ⟨.cname name, by simp [parseRdata, dnsTypeA, dnsTypeAaaa, dnsTypeCname, hname], rfl⟩
  | ptr id ptrName target ttl =>
    refine Iff.trans (@roundTrips_named ptrName target id dnsTypePtr ttl [] (by decide)
      (fun n => .inl rfl) ?_) and_forall_some
    intro data start name stop hname
    change decodeQname data start = _ at hname
    exact ⟨.ptr name, by
      simp [parseRdata, dnsTypeA, dnsTypeAaaa, dnsTypeCname, dnsTypePtr, hname], rfl⟩
  | txt id hostname texts ttl =>
    refine Iff.trans (roundTrips_nameless fun data start => ?_) and_forall_none
    exact parseRdata_txt
  | mx id hostname preference exchange ttl =>
    refine Iff.trans (roundTrips_named ?_ ?_ ?_) and_forall_some
    · simp [toBeBytes16]
    · intro n
      by_cases hn : 2 ≤ n
      · exact .inl (by simp [nameFields, hn, dnsTypeMx, dnsTypeCname, dnsTypePtr,
          dnsTypeNs, toBeBytes16])
      · exact .inr (by simp [nameFields, hn, dnsTypeMx, dnsTypeCname, dnsTypePtr,
          dnsTypeNs, dnsTypeSrv, dnsTypeSoa])
    · intro data start name stop hname
      change decodeQname data (start + 2) = _ at hname
      exact ⟨.mx preference name, by rw [parseRdata_mx, hname]; rfl, rfl⟩
  | srv id hostname priority weight port target ttl =>
    have hpre : buildSrvResponse id hostname priority weight port target ttl =
        buildAnswer id hostname dnsTypeSrv ttl ((toBeBytes16 priority.toNat ++
          (toBeBytes16 weight.toNat ++ toBeBytes16 port.toNat)) ++ encodeQname target) := by
      rw [buildSrvResponse, List.append_assoc, List.append_assoc]
    change RoundTrips (buildSrvResponse id hostname priority weight port target ttl) hostname 1
      (some target) ↔ _
    rw [hpre]
    refine Iff.trans (roundTrips_named ?_ ?_ ?_) and_forall_some
    · simp [toBeBytes16]
    · intro n
      by_cases hn : 6 ≤ n
      · exact .inl (by simp [nameFields, hn, dnsTypeMx, dnsTypeCname, dnsTypePtr,
          dnsTypeNs, dnsTypeSrv, toBeBytes16])
      · exact .inr (by simp [nameFields, hn, dnsTypeMx, dnsTypeCname, dnsTypePtr,
          dnsTypeNs, dnsTypeSrv, dnsTypeSoa])
    · intro data start name stop hname
      change decodeQname data (start + 6) = _ at hname
      rw [List.append_assoc, List.append_assoc]
      exact ⟨.srv priority weight port name, by rw [parseRdata_srv, hname]; rfl, rfl⟩

end Build

/-- Wherever it stands in a message, the encoded name is read back and the read ends behind it. -/
def Decodes (hostname : String) : Prop :=
  ∀ pre post, ∃ name, decodeQname (pre ++ encodeQname hostname ++ post) pre.length =
    .ok (name, pre.length + (encodeQname hostname).length) ∧ labelsOf name = labelsOf hostname

theorem decodes_iff (hostname : String) : Decodes hostname ↔ Fits hostname := by
  have hdrop : ∀ pre post : List UInt8, (pre ++ encodeQname hostname ++ post).drop pre.length =
      encodeQname hostname ++ post := by
    intro pre post
    rw [List.append_assoc, List.drop_left]
  constructor
  · intro h
    obtain ⟨name, hname, hlabels⟩ := h [] []
    exact fits_of_decodeQname (hdrop [] []) hname hlabels
  · intro hfits pre post
    exact ⟨_, decodeQname_encodeQname hfits (hdrop pre post), labelsOf_canonical⟩

/-- A name survives exactly when its labels have at most 63 bytes and all of it at most 255, and a
message when its names do. -/
theorem names_survive_iff (hostname : String) (b : Build) :
    (Decodes hostname ↔ Fits hostname) ∧
      (RoundTrips b.bytes b.host b.answers b.given ↔ Fits b.host ∧ ∀ name ∈ b.given, Fits name) :=
  ⟨decodes_iff hostname, b.roundTrips_iff⟩

example : labelsOf "a..b" = ["a", "b"] := by decide +kernel

/-- A label of 64 bytes is taken for a reserved type. -/
theorem long_label_lost : ¬ ∀ b : Build, RoundTrips b.bytes b.host b.answers b.given := by
  intro h
  obtain ⟨m, hparse, -⟩ := h (.query 1 (String.ofList (List.replicate 64 'a')) dnsTypeA)
  have herror : DnsMessage.parse (buildQuery 1 (String.ofList (List.replicate 64 'a'))) =
      .error (.reservedLabelType 64) := by decide +kernel
  have hboth := herror.symm.trans hparse
  cases hboth

end ToyTcpip.Dns
