import ToyTcpip.Dns.Message

/-! Where the names of a DNS record are read from. -/
namespace ToyTcpip.Dns

open Checked (index bind_eq_ok ite_error_eq_ok slice_eq_ok)
open Tiled (readMany Fills readMany_eq_ok_iff)
open Utf8 (fromUtf8Lossy)

/-! ### The names of a record -/

/-- How many octets stand in front of a record's names, and how many names it has. -/
def nameFields (rtype : BitVec 16) (rdlength : ℕ) : ℕ × ℕ :=
  if rtype = dnsTypeCname ∨ rtype = dnsTypePtr ∨ rtype = dnsTypeNs then (0, 1)
  else if rtype = dnsTypeMx ∧ 2 ≤ rdlength then (2, 1)
  else if rtype = dnsTypeSrv ∧ 6 ≤ rdlength then (6, 1)
  else if rtype = dnsTypeSoa then (0, 2)
  else (0, 0)

def DnsRecordData.names : DnsRecordData → List String
  | .cname name | .ptr name | .ns name | .mx _ name | .srv _ _ _ name => [name]
  | .soa mname rname _ _ _ _ _ => [mname, rname]
  | _ => []

/-- Where the last of `n` names ends. -/
def namesEnd (data : List UInt8) : ℕ → ℕ → ℕ
  | 0, offset => offset
  | n + 1, offset => namesEnd data n (literalEnd data offset)

/-- Bytes that start with these names, one after the other. -/
def SpellsAll (data : List UInt8) : List UInt8 → List String → Prop
  | _, [] => True
  | bytes, name :: names => ∃ labels post, Spells data bytes labels post ∧
      name = ".".intercalate (labels.map fromUtf8Lossy) ∧ SpellsAll data post names

/-- None of `n` names has a pointer. -/
def Uncompressed (data : List UInt8) : ℕ → ℕ → Prop
  | 0, _ => True
  | n + 1, offset => (∃ labels post, Short labels ∧
      data.drop offset = encodeLabels labels ++ 0 :: post) ∧
      Uncompressed data n (literalEnd data offset)

variable {data data' rdata : List UInt8} {offset start stop next e n skip : ℕ} {names : List String}
  {rtype rclass : BitVec 16} {ttl : BitVec 32} {found : DnsRecordData} {r : DnsAnswer}

theorem nameFields_skip_le {rdlength : ℕ} : (nameFields rtype rdlength).1 ≤ rdlength := by
  unfold nameFields
  split_ifs <;> simp_all

theorem getElem?_of_take_eq {i : ℕ} (h : data'.take e = data.take e) (hi : i < e) :
    data'[i]? = data[i]? := by
  rw [← List.getElem?_take_of_lt hi, h, List.getElem?_take_of_lt hi]

theorem read32_of_take_eq (h : data'.take e = data.take e) (hoff : offset + 4 ≤ e) :
    (read32 data' offset : Parsed _) = read32 data offset := by
  have hindex : ∀ i < e, (index data' i : Parsed UInt8) = index data i := by
    intro i hi
    rw [index, getElem?_of_take_eq h hi, index]
  rw [read32, read32, hindex _ (by omega), hindex _ (by omega), hindex _ (by omega),
    hindex _ (by omega)]

theorem parseSoa_of_take_eq (h : data'.take e = data.take e) (hoff : offset + 20 ≤ e)
    (mname rname : String) :
    parseSoa data' mname rname offset = parseSoa data mname rname offset := by
  rw [parseSoa, parseSoa, read32_of_take_eq h (by omega), read32_of_take_eq h (by omega),
    read32_of_take_eq h (by omega), read32_of_take_eq h (by omega), read32_of_take_eq h (by omega)]

theorem names_of_parseSoa {mname rname : String}
    (h : parseSoa data mname rname offset = .ok found) : found.names = [mname, rname] := by
  simp only [parseSoa, Checked.bind_def] at h
  obtain ⟨serial, -, h⟩ := bind_eq_ok.mp h
  obtain ⟨refresh, -, h⟩ := bind_eq_ok.mp h
  obtain ⟨retry, -, h⟩ := bind_eq_ok.mp h
  obtain ⟨expire, -, h⟩ := bind_eq_ok.mp h
  obtain ⟨minimum, -, h⟩ := bind_eq_ok.mp h
  cases h
  rfl

/-- A result that depends on the message through these names and the bytes before `e` only. -/
def ReadsNames (data rdata : List UInt8) (offset n e : ℕ)
    (parser : List UInt8 → Parsed DnsRecordData) (found : DnsRecordData) : Prop :=
  ∃ names stop, Fills (decodeQname data) offset names stop ∧ names.length = n ∧
    (found.names = names ∨ found = .raw rdata) ∧
    ∀ data', Fills (decodeQname data') offset names stop → data'.take e = data.take e →
      parser data' = .ok found

theorem readsNames_none (h : found.names = []) :
    ReadsNames data rdata offset 0 e (fun _ => .ok found) found :=
  ⟨[], offset, .nil, rfl, .inl h, fun _ _ _ => rfl⟩

theorem readsNames_one {make : String → DnsRecordData} (hmake : ∀ name, (make name).names = [name])
    (h : ((decodeQname data offset).bind fun name => .ok (make name.1)) = .ok found) :
    ReadsNames data rdata offset 1 e
      (fun data => (decodeQname data offset).bind fun name => .ok (make name.1)) found := by
  obtain ⟨name, hname, h⟩ := bind_eq_ok.mp h
  cases h
  refine ⟨_, _, .cons hname .nil, rfl, .inl (hmake _), fun data' hfills _ => ?_⟩
  cases hfills with
  | cons first others =>
    cases others
    dsimp only
    rw [first]
    rfl

theorem readsNames_soa
    (h : ((decodeQname data offset).bind fun mname => (decodeQname data mname.2).bind fun rname =>
      if rname.2 + 20 ≤ e then parseSoa data mname.1 rname.1 rname.2 else .ok (.raw rdata)) =
        .ok found) :
    ReadsNames data rdata offset 2 e
      (fun data => (decodeQname data offset).bind fun mname =>
        (decodeQname data mname.2).bind fun rname =>
          if rname.2 + 20 ≤ e then parseSoa data mname.1 rname.1 rname.2 else .ok (.raw rdata))
      found := by
  obtain ⟨mname, hmname, h⟩ := bind_eq_ok.mp h
  obtain ⟨rname, hrname, h⟩ := bind_eq_ok.mp h
  refine ⟨_, _, .cons hmname (.cons hrname .nil), rfl, ?_, fun data' hfills htake => ?_⟩
  · split_ifs at h with hroom
    · exact .inl (names_of_parseSoa h)
    · cases h
      exact .inr rfl
  · cases hfills with
    | cons first others =>
      cases others with
      | cons second none =>
        cases none
        dsimp only
        rw [first, Checked.ok_bind, second, Checked.ok_bind]
        split_ifs at h ⊢ with hroom
        · rw [parseSoa_of_take_eq htake hroom]
          exact h
        · exact h

/-- What a record holds is read from the RDATA and from the names that start in it. -/
theorem parseRdata_spec (h : parseRdata data rtype rclass ttl start rdata = .ok found) :
    ReadsNames data rdata (start + (nameFields rtype rdata.length).1)
      (nameFields rtype rdata.length).2
      (start + rdata.length) (fun data => parseRdata data rtype rclass ttl start rdata) found := by
  by_cases ha : rtype = dnsTypeA ∧ rdata.length = 4
  · simp only [parseRdata, if_pos ha] at h ⊢
    cases h
    rw [ha.1, ha.2]
    exact readsNames_none rfl
  by_cases haaaa : rtype = dnsTypeAaaa ∧ rdata.length = 16
  · simp only [parseRdata, if_neg ha, if_pos haaaa] at h ⊢
    cases h
    rw [haaaa.1, haaaa.2]
    exact readsNames_none rfl
  by_cases hcname : rtype = dnsTypeCname
  · simp only [parseRdata, if_neg ha, if_neg haaaa, if_pos hcname] at h ⊢
    rw [show nameFields rtype rdata.length = (0, 1) by rw [nameFields, if_pos (.inl hcname)]]
    exact readsNames_one (fun _ => rfl) h
  by_cases hptr : rtype = dnsTypePtr
  · simp only [parseRdata, if_neg ha, if_neg haaaa, if_neg hcname, if_pos hptr] at h ⊢
    rw [show nameFields rtype rdata.length = (0, 1) by rw [nameFields, if_pos (.inr (.inl hptr))]]
    exact readsNames_one (fun _ => rfl) h
  by_cases hns : rtype = dnsTypeNs
  · simp only [parseRdata, if_neg ha, if_neg haaaa, if_neg hcname, if_neg hptr, if_pos hns] at h ⊢
    rw [show nameFields rtype rdata.length = (0, 1) by rw [nameFields, if_pos (.inr (.inr hns))]]
    exact readsNames_one (fun _ => rfl) h
  have hsingle : ¬ (rtype = dnsTypeCname ∨ rtype = dnsTypePtr ∨ rtype = dnsTypeNs) := by
    rintro (h | h | h)
    · exact hcname h
    · exact hptr h
    · exact hns h
  by_cases hmx : rtype = dnsTypeMx ∧ 2 ≤ rdata.length
  · simp only [parseRdata, if_neg ha, if_neg haaaa, if_neg hcname, if_neg hptr, if_neg hns,
      if_pos hmx] at h ⊢
    obtain ⟨preference, hpreference, h⟩ := bind_eq_ok.mp h
    rw [show nameFields rtype rdata.length = (2, 1) by rw [nameFields, if_neg hsingle, if_pos hmx]]
    simp only [hpreference, Checked.ok_bind]
    exact readsNames_one (fun _ => rfl) h
  by_cases htxt : rtype = dnsTypeTxt
  · simp only [parseRdata, if_neg ha, if_neg haaaa, if_neg hcname, if_neg hptr, if_neg hns,
      if_neg hmx, if_pos htxt] at h ⊢
    obtain ⟨texts, htexts, h⟩ := bind_eq_ok.mp h
    cases h
    rw [show nameFields rtype rdata.length = (0, 0) by
      rw [nameFields, if_neg hsingle, if_neg hmx, htxt, if_neg fun h => absurd h.1 (by decide),
        if_neg (by decide)]]
    simp only [htexts, Checked.ok_bind]
    exact readsNames_none rfl
  by_cases hsrv : rtype = dnsTypeSrv ∧ 6 ≤ rdata.length
  · simp only [parseRdata, if_neg ha, if_neg haaaa, if_neg hcname, if_neg hptr, if_neg hns,
      if_neg hmx, if_neg htxt, if_pos hsrv] at h ⊢
    obtain ⟨priority, hpriority, h⟩ := bind_eq_ok.mp h
    obtain ⟨weight, hweight, h⟩ := bind_eq_ok.mp h
    obtain ⟨port, hport, h⟩ := bind_eq_ok.mp h
    rw [show nameFields rtype rdata.length = (6, 1) by
      rw [nameFields, if_neg hsingle, if_neg hmx, if_pos hsrv]]
    simp only [hpriority, hweight, hport, Checked.ok_bind]
    exact readsNames_one (fun _ => rfl) h
  by_cases hsoa : rtype = dnsTypeSoa
  · simp only [parseRdata, if_neg ha, if_neg haaaa, if_neg hcname, if_neg hptr, if_neg hns,
      if_neg hmx, if_neg htxt, if_neg hsrv, if_pos hsoa] at h ⊢
    rw [show nameFields rtype rdata.length = (0, 2) by
      rw [nameFields, if_neg hsingle, if_neg hmx, if_neg hsrv, if_pos hsoa]]
    exact readsNames_soa h
  rw [show nameFields rtype rdata.length = (0, 0) by
    rw [nameFields, if_neg hsingle, if_neg hmx, if_neg hsrv, if_neg hsoa]]
  simp only [parseRdata, if_neg ha, if_neg haaaa, if_neg hcname, if_neg hptr, if_neg hns,
    if_neg hmx, if_neg htxt, if_neg hsrv, if_neg hsoa] at h ⊢
  split_ifs at h ⊢
  · cases h
    exact readsNames_none rfl
  · cases h
    exact readsNames_none rfl

/-! ### Records in their place -/

theorem fills_namesEnd (h : Fills (decodeQname data) offset names stop) :
    stop = namesEnd data names.length offset := by
  induction h with
  | nil => rfl
  | cons first _ ih =>
    obtain ⟨-, -, -, -, -, rfl⟩ := decodeQname_eq_ok_iff.mp first
    exact ih

theorem le_namesEnd : offset ≤ namesEnd data n offset := by
  induction n generalizing offset with
  | zero => exact le_rfl
  | succ n ih => exact le_literalEnd.trans ih

theorem spellsAll_of_fills (h : Fills (decodeQname data) offset names stop) (hle : stop ≤ e) :
    SpellsAll data ((data.take e).drop offset) names := by
  induction h with
  | nil => trivial
  | cons first others ih =>
    obtain ⟨trail, labels, hexpands, -, rfl, rfl⟩ := decodeQname_eq_ok_iff.mp first
    have hstop := (@le_namesEnd _ _ _).trans (fills_namesEnd others).symm.le
    exact ⟨labels, _, hexpands.spells (hstop.trans hle), rfl, ih hle⟩

theorem namesEnd_le (hle : offset ≤ e) (h : SpellsAll data ((data.take e).drop offset) names) :
    namesEnd data names.length offset ≤ e := by
  induction names generalizing offset with
  | nil => exact hle
  | cons name names ih =>
    obtain ⟨labels, post, hspells, -, hrest⟩ := h
    obtain ⟨hend, rfl⟩ := hspells.literalEnd_le
    exact ih hend hrest

/-- What is spelled out before `e` stays when the rest changes. -/
theorem drop_of_take_eq {front post : List UInt8} (h : data.drop offset = front ++ post)
    (htake : data'.take e = data.take e) (hle : offset + front.length ≤ e) :
    ∃ post', data'.drop offset = front ++ post' := by
  have hfront : (data'.drop offset).take front.length = front := by
    have hcut : data'.take (offset + front.length) = data.take (offset + front.length) := by
      rw [← min_eq_left hle, ← List.take_take, htake, List.take_take]
    rw [List.take_drop, hcut, ← List.take_drop, h, List.take_left]
  exact ⟨(data'.drop offset).drop front.length, by
    rw [← congrArg (· ++ _) hfront, List.take_append_drop]⟩

theorem fills_of_uncompressed (h : Fills (decodeQname data) offset names stop)
    (hplain : Uncompressed data names.length offset) (hle : stop ≤ e)
    (htake : data'.take e = data.take e) : Fills (decodeQname data') offset names stop := by
  induction h with
  | nil => exact .nil
  | cons first others ih =>
    obtain ⟨⟨labels', post, hshort, hdrop⟩, hrest⟩ := hplain
    obtain ⟨trail, labels, hexpands, hwire, rfl, rfl⟩ := decodeQname_eq_ok_iff.mp first
    obtain ⟨⟨trail', hexpands'⟩, hend⟩ := expands_plain hshort hdrop
    obtain ⟨-, rfl⟩ := hexpands.unique hexpands'
    have hstop := (@le_namesEnd _ _ _).trans (fills_namesEnd others).symm.le
    obtain ⟨post', hdrop'⟩ := @drop_of_take_eq data data' _ _ (encodeLabels labels ++ [0]) post
      (by simpa using hdrop) htake (by simp; omega)
    obtain ⟨⟨trail'', hexpands''⟩, hend'⟩ := expands_plain hshort (by simpa using hdrop')
    refine .cons (decodeQname_eq_ok_iff.mpr ⟨trail'', labels, hexpands'', hwire, rfl, ?_⟩)
      (ih hrest hle)
    rw [hend, hend']

/-- What a record is made of. -/
theorem parseResourceRecord_spec (h : parseResourceRecord data offset = .ok (r, next)) :
    literalEnd data offset + 10 ≤ next ∧ next ≤ data.length ∧
      parseRdata data r.rtype r.rclass r.ttl (literalEnd data offset + 10)
        ((data.take next).drop (literalEnd data offset + 10)) = .ok r.data := by
  obtain ⟨name, hname, h⟩ := bind_eq_ok.mp h
  obtain ⟨-, -, -, -, -, hstop⟩ := decodeQname_eq_ok_iff.mp hname
  obtain ⟨hfixed, h⟩ := ite_error_eq_ok.mp h
  obtain ⟨rtype, -, h⟩ := bind_eq_ok.mp h
  obtain ⟨rclass, -, h⟩ := bind_eq_ok.mp h
  obtain ⟨ttl, -, h⟩ := bind_eq_ok.mp h
  obtain ⟨rdlength, -, h⟩ := bind_eq_ok.mp h
  obtain ⟨hroom, h⟩ := ite_error_eq_ok.mp h
  rw [slice_eq_ok (by omega) (by omega), Checked.ok_bind] at h
  obtain ⟨found, hfound, h⟩ := bind_eq_ok.mp h
  cases h
  rw [← hstop]
  exact ⟨by omega, by omega, hfound⟩

theorem parseQuestion_spec {q : DnsQuestion} (h : parseQuestion data offset = .ok (q, next)) :
    next = literalEnd data offset + 4 ∧ next ≤ data.length := by
  obtain ⟨name, hname, h⟩ := bind_eq_ok.mp h
  obtain ⟨-, -, -, -, -, hstop⟩ := decodeQname_eq_ok_iff.mp hname
  obtain ⟨hfixed, h⟩ := ite_error_eq_ok.mp h
  obtain ⟨qtype, -, h⟩ := bind_eq_ok.mp h
  obtain ⟨qclass, -, h⟩ := bind_eq_ok.mp h
  cases h
  rw [← hstop]
  exact ⟨rfl, by omega⟩

/-- The range of a record's RDATA starts behind its name and ten octets of fields. -/
def rdataStart (data : List UInt8) (offset : ℕ) : ℕ := literalEnd data offset + 10

/-- The names in the RDATA of the record from `offset` to `next` are spelled there, and without
pointers what it holds is settled by the bytes up to its end. -/
structure Inside (data : List UInt8) (offset : ℕ) (r : DnsAnswer) (next : ℕ) : Prop where
  range : rdataStart data offset ≤ next ∧ next ≤ data.length
  spelled : ∃ names, names.length = (nameFields r.rtype (next - rdataStart data offset)).2 ∧
    SpellsAll data ((data.take next).drop (rdataStart data offset +
      (nameFields r.rtype (next - rdataStart data offset)).1)) names ∧
    (r.data.names = names ∨ r.data = .raw ((data.take next).drop (rdataStart data offset)))
  settled : Uncompressed data (nameFields r.rtype (next - rdataStart data offset)).2
      (rdataStart data offset + (nameFields r.rtype (next - rdataStart data offset)).1) →
    ∀ data', data'.take next = data.take next →
      parseRdata data' r.rtype r.rclass r.ttl (rdataStart data offset)
        ((data.take next).drop (rdataStart data offset)) = .ok r.data

/-- RDLENGTH is enough for what stands in front of the record's names and for the names. -/
def Roomy (data : List UInt8) (offset : ℕ) (r : DnsAnswer) (next : ℕ) : Prop :=
  namesEnd data (nameFields r.rtype (next - rdataStart data offset)).2
    (rdataStart data offset + (nameFields r.rtype (next - rdataStart data offset)).1) ≤ next

theorem inside_iff (h : parseResourceRecord data offset = .ok (r, next)) :
    Inside data offset r next ↔ Roomy data offset r next := by
  obtain ⟨hle, hlen, hrdata⟩ := parseResourceRecord_spec h
  change rdataStart data offset ≤ next at hle
  change parseRdata data r.rtype r.rclass r.ttl (rdataStart data offset)
    ((data.take next).drop (rdataStart data offset)) = _ at hrdata
  have hsize : ((data.take next).drop (rdataStart data offset)).length =
      next - rdataStart data offset := by
    rw [List.length_drop, List.length_take]
    omega
  have hskip := @nameFields_skip_le r.rtype (next - rdataStart data offset)
  obtain ⟨names, stop, hfills, hcount, hnames, hread⟩ := parseRdata_spec hrdata
  rw [hsize] at hfills hcount hread
  rw [Nat.add_sub_cancel' hle] at hread
  constructor
  · intro hinside
    obtain ⟨names', hcount', hspells, -⟩ := hinside.spelled
    have hend := namesEnd_le (by omega) hspells
    rwa [hcount'] at hend
  · intro hroomy
    have hstop := fills_namesEnd hfills
    rw [hcount] at hstop
    have hend : stop ≤ next := hstop.trans_le hroomy
    refine ⟨⟨hle, hlen⟩, ⟨names, hcount, spellsAll_of_fills hfills hend, hnames⟩, ?_⟩
    intro hplain data' htake
    rw [← hcount] at hplain
    exact hread data' (fills_of_uncompressed hfills hplain hend htake) htake

/-- While the message is parsed `r` is read from `offset` to `next`. -/
def Placed (data : List UInt8) (m : DnsMessage) (offset : ℕ) (r : DnsAnswer) (next : ℕ) : Prop :=
  ∃ start before after, Fills (parseQuestion data) 12 m.questions start ∧
    m.records = before ++ r :: after ∧ Fills (parseResourceRecord data) start before offset ∧
    parseResourceRecord data offset = .ok (r, next)

/-- A name is refused, or it has at most 255 octets and its bytes are read without coming to an
offset twice. -/
def Walks (data : List UInt8) (offset : ℕ) : Prop :=
  (∃ e, decodeQname data offset = .error e) ∨
    ∃ trail labels, Expands data offset trail labels ∧ trail.Nodup ∧ trail.length ≤ data.length ∧
      1 + wireLength labels ≤ 255 ∧
      decodeQname data offset = .ok (".".intercalate (labels.map fromUtf8Lossy),
        literalEnd data offset)

/-- The sections follow each other, the records keep to their RDATA and every name comes to an
end. -/
structure Contained (data : List UInt8) (m : DnsMessage) : Prop where
  tiled : ∃ start stop, Fills (parseQuestion data) 12 m.questions start ∧
    Fills (parseResourceRecord data) start m.records stop ∧ stop ≤ data.length
  inside : ∀ offset r next, Placed data m offset r next → Inside data offset r next
  walks : ∀ offset, Walks data offset

theorem walks : Walks data offset := by
  cases h : decodeQname data offset with
  | error e => exact .inl ⟨e, h⟩
  | panic => exact absurd h safe_decodeQname
  | ok found =>
    obtain ⟨trail, labels, hexpands, hwire, hname, hstop⟩ :=
      decodeQname_eq_ok_iff.mp (show decodeQname data offset = .ok (found.1, found.2) from h)
    obtain ⟨hnodup, hin⟩ := hexpands.nodup
    refine .inr ⟨trail, labels, hexpands, hnodup, ?_, hwire, ?_⟩
    · have hsub : trail ⊆ List.range data.length := fun o ho => List.mem_range.mpr (hin o ho)
      simpa using (hnodup.subperm hsub).length_le
    · rw [← hname, ← hstop]
      exact h

theorem fills_le {α : Type} {read : ℕ → Parsed (α × ℕ)} {items : List α}
    (hread : ∀ offset a next, read offset = .ok (a, next) → next ≤ data.length)
    (h : Fills read offset items stop) (hle : offset ≤ data.length) : stop ≤ data.length := by
  induction h with
  | nil => exact hle
  | cons first _ ih => exact ih (hread _ _ _ first)

/-- The four sections of a message, one behind the other. -/
theorem parse_tiled {m : DnsMessage} (h : DnsMessage.parse data = .ok m) :
    ∃ start stop, Fills (parseQuestion data) 12 m.questions start ∧
      Fills (parseResourceRecord data) start m.records stop ∧ stop ≤ data.length := by
  rw [DnsMessage.parse] at h
  obtain ⟨hlen, h⟩ := ite_error_eq_ok.mp h
  simp only [Checked.bind_def] at h
  obtain ⟨id, -, h⟩ := bind_eq_ok.mp h
  obtain ⟨flags, -, h⟩ := bind_eq_ok.mp h
  obtain ⟨qdcount, -, h⟩ := bind_eq_ok.mp h
  obtain ⟨ancount, -, h⟩ := bind_eq_ok.mp h
  obtain ⟨nscount, -, h⟩ := bind_eq_ok.mp h
  obtain ⟨arcount, -, h⟩ := bind_eq_ok.mp h
  obtain ⟨questions, hquestions, h⟩ := bind_eq_ok.mp h
  obtain ⟨answers, hanswers, h⟩ := bind_eq_ok.mp h
  obtain ⟨authorities, hauthorities, h⟩ := bind_eq_ok.mp h
  obtain ⟨additionals, hadditionals, h⟩ := bind_eq_ok.mp h
  cases h
  obtain ⟨-, hquestions⟩ := readMany_eq_ok_iff.mp hquestions
  obtain ⟨-, hanswers⟩ := readMany_eq_ok_iff.mp hanswers
  obtain ⟨-, hauthorities⟩ := readMany_eq_ok_iff.mp hauthorities
  obtain ⟨-, hadditionals⟩ := readMany_eq_ok_iff.mp hadditionals
  have hrecords := (hanswers.append hauthorities).append hadditionals
  have hfront := fills_le (fun _ _ _ h => (parseQuestion_spec h).2) hquestions (by omega)
  exact ⟨_, _, hquestions, hrecords,
    fills_le (fun _ _ _ h => (parseResourceRecord_spec h).2.1) hrecords hfront⟩

/-- A message that is accepted keeps its records apart exactly when every RDLENGTH covers the names
that are read for it. -/
theorem records_contained_iff (data : List UInt8) (m : DnsMessage)
    (h : DnsMessage.parse data = .ok m) :
    Contained data m ↔ ∀ offset r next, Placed data m offset r next → Roomy data offset r next := by
  constructor
  · intro hcontained offset r next hplaced
    have hinside := hcontained.inside offset r next hplaced
    obtain ⟨-, -, -, -, -, -, hread⟩ := hplaced
    exact (inside_iff hread).mp hinside
  · intro hroomy
    refine ⟨parse_tiled h, fun offset r next hplaced => ?_, fun offset => walks⟩
    have hroom := hroomy offset r next hplaced
    obtain ⟨-, -, -, -, -, -, hread⟩ := hplaced
    exact (inside_iff hread).mpr hroom

/-- Two answers, the first a CNAME without any RDATA. -/
def lentCname : List UInt8 :=
  [0, 1, 0x81, 0x80, 0, 0, 0, 2, 0, 0, 0, 0] ++ [0, 0, 5, 0, 1, 0, 0, 0, 0, 0, 0] ++
    [1, 0x61, 0, 0, 1, 0, 1, 0, 0, 0, 0, 0, 4, 10, 0, 0, 1]

def lentMessage : DnsMessage :=
  ⟨1, true, true, true, false, false, 0, [],
    [⟨"", dnsTypeCname, dnsClassIn, 0, ⟨0, 0, 0, 0⟩, .cname "a"⟩,
      ⟨"a", dnsTypeA, dnsClassIn, 0, ⟨10, 0, 0, 1⟩, .a ⟨10, 0, 0, 1⟩⟩], [], []⟩

theorem parse_lentCname : DnsMessage.parse lentCname = .ok lentMessage := by decide +kernel

theorem records_contained_iff_lent : Contained lentCname lentMessage ↔
    ∀ offset r next, Placed lentCname lentMessage offset r next → Roomy lentCname offset r next :=
  records_contained_iff lentCname lentMessage (by decide +kernel)

/-- The CNAME is the owner name of the next record. -/
theorem cname_lent_by_next_record :
    ¬ ∀ data m, DnsMessage.parse data = .ok m → Contained data m := by
  intro h
  have hplaced : Placed lentCname lentMessage 12
      ⟨"", dnsTypeCname, dnsClassIn, 0, ⟨0, 0, 0, 0⟩, .cname "a"⟩ 23 :=
    ⟨12, [], _, .nil, rfl, .nil, by decide +kernel⟩
  have hinside := (h lentCname lentMessage parse_lentCname).inside _ _ _ hplaced
  have hplain : Uncompressed lentCname 1 23 :=
    ⟨⟨[[0x61]], _, by simp [Short], rfl⟩, trivial⟩
  have hstart : rdataStart lentCname 12 = 23 := by decide +kernel
  have hsettled := hinside.settled
  rw [hstart] at hsettled
  have hread := hsettled hplain (lentCname.take 23 ++ [0]) (by decide)
  revert hread
  decide +kernel

end ToyTcpip.Dns
