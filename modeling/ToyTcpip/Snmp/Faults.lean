import ToyTcpip.Snmp.Message

/-! Which bytes make the BER decoder of `snmp.rs` overflow. -/
namespace ToyTcpip.Snmp

open BigEndian
open Checked (index slice bind_eq_ok ite_error_eq_ok safe_ok safe_error safe_ite)

variable {α β : Type} {x : Parsed α} {f : α → Parsed β} {data body d : List UInt8} {tag : UInt8}

theorem bind_eq_panic : x.bind f = .panic ↔ x = .panic ∨ ∃ a, x = .ok a ∧ f a = .panic := by
  cases x <;> simp [Checked.bind]

theorem ite_error_eq_panic {c : Prop} [Decidable c] {e : SnmpError} :
    (if c then .error e else x) = .panic ↔ ¬ c ∧ x = .panic := by
  split <;> simp_all

theorem bind_safe_eq_panic (h : x ≠ .panic) :
    x.bind f = .panic ↔ ∃ a, x = .ok a ∧ f a = .panic := by
  rw [bind_eq_panic]
  simp [h]

/-! ### One value -/

/-- Eight octets announce a length that, with the header, passes the end of `usize`. -/
def Overlong (data : List UInt8) : Prop :=
  ∃ tag octets rest, data = tag :: 0x88 :: (octets ++ rest) ∧ octets.length = 8 ∧
    2 ^ 64 - 10 ≤ value octets

theorem and_127_eq_8 {b : UInt8} (h : ¬ b &&& 0x80 = 0) (hcount : (b &&& 0x7F).toNat = 8) :
    b = 0x88 := by
  rw [and_128_eq_zero] at h
  rw [toNat_and_127] at hcount
  have hb := b.toNat_lt
  apply UInt8.toNat_inj.mp
  simp
  omega

theorem decodeBerLength_ne_panic (tag lenByte : UInt8) (rest : List UInt8) :
    decodeBerLength (tag :: lenByte :: rest) lenByte ≠ .panic := by
  unfold decodeBerLength
  split
  · simp
  · simp only [ne_eq, ite_error_eq_panic, bind_eq_panic, not_and, not_or]
    intro hcount hlen
    simp only [List.length_cons] at hlen
    refine ⟨Checked.safe_index (by simp; omega), ?_⟩
    rintro ⟨first, -, -, hpanic | ⟨octets, -, -, hpanic⟩⟩
    · exact Checked.safe_slice (by omega) (by simp only [List.length_cons]; omega) hpanic
    · cases hpanic

/-- The announced length fills up the octets after the header. -/
theorem announced_octets {lenByte : UInt8} {rest : List UInt8} {len headerLen : ℕ}
    (h : decodeBerLength (tag :: lenByte :: rest) lenByte = .ok (len, headerLen))
    (hlarge : 2 ^ 64 ≤ headerLen + len) :
    lenByte = 0x88 ∧ headerLen = 10 ∧ ∃ octets more, rest = octets ++ more ∧ octets.length = 8 ∧
      len = value octets := by
  unfold decodeBerLength at h
  split at h
  · have hb := lenByte.toNat_lt
    obtain ⟨rfl, rfl⟩ : lenByte.toNat = len ∧ 2 = headerLen := by simpa using h
    omega
  · next hhigh =>
    dsimp only at h
    obtain ⟨hcount, h⟩ := ite_error_eq_ok.mp h
    obtain ⟨hlen, h⟩ := ite_error_eq_ok.mp h
    obtain ⟨first, -, h⟩ := bind_eq_ok.mp h
    obtain ⟨-, h⟩ := ite_error_eq_ok.mp h
    obtain ⟨octets, hslice, h⟩ := bind_eq_ok.mp h
    obtain ⟨-, h⟩ := ite_error_eq_ok.mp h
    obtain ⟨rfl, rfl⟩ : value octets = len ∧ 2 + (lenByte &&& 0x7F).toNat = headerLen := by
      simpa using h
    obtain ⟨hstop, -, hdrop⟩ := Checked.drop_of_slice hslice
    have hoctets : octets.length = (lenByte &&& 0x7F).toNat := by omega
    have hvalue := value_lt octets
    have hpow : 256 ^ octets.length ≤ 256 ^ 8 := Nat.pow_le_pow_right (by omega) (by omega)
    have height : octets.length = 8 := by
      by_contra hne
      have : 256 ^ octets.length ≤ 256 ^ 7 := Nat.pow_le_pow_right (by omega) (by omega)
      omega
    refine ⟨and_127_eq_8 hhigh (by omega), by omega, octets, _, hdrop, height, rfl⟩

theorem decodeBerLength_octets {octets rest : List UInt8} (hlen : octets.length = 8)
    (hlarge : 2 ^ 64 - 10 ≤ value octets) :
    decodeBerLength (tag :: 0x88 :: (octets ++ rest)) 0x88 = .ok (value octets, 10) := by
  have hslice := Checked.slice_middle (ε := SnmpError) [tag, 0x88] octets rest
  rw [hlen] at hslice
  obtain ⟨first, more, hcons⟩ : ∃ first more, octets = first :: more := by
    cases octets with
    | nil => simp at hlen
    | cons first more => exact ⟨first, more, rfl⟩
  have hfirst : first ≠ 0 := by
    rintro rfl
    have hmore := value_lt more
    have hseven : more.length = 7 := by simpa [hcons] using hlen
    rw [hcons, value_cons, hseven] at hlarge
    rw [hseven] at hmore
    simp at hlarge
    omega
  have hindex : (index (tag :: 0x88 :: (octets ++ rest)) 2 : Parsed UInt8) = .ok first := by
    rw [hcons]
    rfl
  rw [decodeBerLength, if_neg (by decide)]
  simp only
  rw [show ((0x88 : UInt8) &&& 0x7F).toNat = 8 from rfl, if_neg (by decide),
    if_neg (by simp; omega), hindex, Checked.ok_bind, if_neg hfirst]
  rw [show (slice (tag :: 0x88 :: (octets ++ rest)) 2 (2 + 8) : Parsed _) = .ok octets from hslice,
    Checked.ok_bind, if_neg (by omega)]

theorem decodeBerTlv_panic_iff (data : List UInt8) :
    decodeBerTlv data = .panic ↔ Overlong data := by
  match data with
  | [] => simp [decodeBerTlv, Overlong]
  | [_] => simp [decodeBerTlv, Overlong]
  | tag :: lenByte :: rest =>
    rw [decodeBerTlv, if_neg (by simp), Checked.index_cons_zero, Checked.ok_bind,
      Checked.index_cons_succ, Checked.index_cons_zero, Checked.ok_bind,
      bind_safe_eq_panic (decodeBerLength_ne_panic tag lenByte rest)]
    constructor
    · rintro ⟨⟨len, headerLen⟩, hlen, hpanic⟩
      by_cases hlarge : 2 ^ 64 ≤ headerLen + len
      · obtain ⟨rfl, rfl, octets, more, rfl, height, rfl⟩ := announced_octets hlen hlarge
        exact ⟨tag, octets, more, rfl, height, by omega⟩
      · rw [if_neg hlarge, ite_error_eq_panic, bind_eq_panic] at hpanic
        obtain ⟨hroom, hslice | ⟨body, -, hok⟩⟩ := hpanic
        · exact absurd hslice (Checked.safe_slice (by omega) (by omega))
        · cases hok
    · rintro ⟨tag', octets, more, heq, height, hlarge⟩
      simp only [List.cons.injEq] at heq
      obtain ⟨rfl, rfl, rfl⟩ := heq
      refine ⟨_, decodeBerLength_octets height hlarge, ?_⟩
      rw [if_pos (by simp only; omega)]

/-- A value with its header in front of the rest, or an error. -/
def Answers (data : List UInt8) : Prop :=
  (∃ e, decodeBerTlv data = .error e) ∨
    ∃ tag header body rest, decodeBerTlv data = .ok (tag, body, header.length + body.length) ∧
      header = tag :: encodeBerLength body.length ∧ data = header ++ body ++ rest

theorem answers_iff (data : List UInt8) : Answers data ↔ ¬ Overlong data := by
  rw [← decodeBerTlv_panic_iff]
  constructor
  · rintro (⟨e, he⟩ | ⟨tag, header, body, rest, hok, -⟩) hpanic
    · simp [he] at hpanic
    · simp [hok] at hpanic
  · intro hsafe
    cases hdecode : decodeBerTlv data with
    | panic => exact absurd hdecode hsafe
    | error e => exact .inl ⟨e, hdecode⟩
    | ok found =>
      obtain ⟨tag, body, n⟩ := found
      obtain ⟨hn, -, hdata⟩ := decodeBerTlv_eq_ok hdecode
      have hlen : n = (tag :: encodeBerLength body.length).length + body.length := by
        rw [hn, encodeTlv_length, List.length_cons]
        omega
      refine .inr ⟨tag, _, body, data.drop n, hlen ▸ hdecode, rfl, ?_⟩
      rw [encodeTlv] at hdata
      simpa using hdata

/-! ### A message -/

theorem decodeBerInteger_safe (bytes : List UInt8) : (decodeBerInteger bytes).Safe := by
  unfold decodeBerInteger
  split
  · simp
  · exact safe_ite (fun _ => safe_error _) fun _ =>
      safe_ite (fun _ => safe_error _) fun _ => safe_ok _

theorem decodeBerUnsigned_safe (bytes : List UInt8) : (decodeBerUnsigned bytes).Safe := by
  unfold decodeBerUnsigned
  split
  · simp
  · refine safe_ite (fun _ => safe_error _) fun _ => safe_ite (fun _ => safe_error _) fun _ => ?_
    exact safe_ite (fun _ => safe_error _) fun _ => safe_ok _

theorem decodeBerUnsigned32_safe (bytes : List UInt8) : (decodeBerUnsigned32 bytes).Safe :=
  (decodeBerUnsigned_safe bytes).bind fun _ _ => safe_ite (fun _ => safe_error _) fun _ => safe_ok _

theorem decodeSubids_safe (bytes : List UInt8) (val : ℕ) (atStart : Bool) :
    (decodeSubids bytes val atStart).Safe := by
  induction bytes generalizing val atStart with
  | nil =>
    unfold decodeSubids
    exact safe_ite (fun _ => safe_error _) fun _ => safe_ok _
  | cons byte rest ih =>
    unfold decodeSubids
    refine safe_ite (fun _ => safe_error _) fun _ => safe_ite (fun _ => safe_error _) fun _ => ?_
    exact safe_ite (fun _ => (ih 0 true).bind fun _ _ => safe_ok _) fun _ => ih _ _

theorem decodeBerOid_safe (bytes : List UInt8) : (decodeBerOid bytes).Safe := by
  refine safe_ite (fun _ => safe_error _) fun _ => (decodeSubids_safe _ _ _).bind ?_
  intro subids _
  split
  · exact safe_error _
  · exact safe_ok _

theorem emptyValue_safe (body : List UInt8) (val : SnmpValue) : (emptyValue body val).Safe :=
  safe_ite (fun _ => safe_ok _) fun _ => safe_error _

theorem decodeValue_safe (tag : UInt8) (body : List UInt8) : (decodeValue tag body).Safe := by
  have hsmall : ∀ f : BitVec 32 → SnmpValue,
      Checked.Safe ((decodeBerUnsigned32 body).bind fun val => .ok (f val)) :=
    fun f => (decodeBerUnsigned32_safe body).bind fun _ _ => safe_ok _
  unfold decodeValue
  refine safe_ite (fun _ => (decodeBerInteger_safe body).bind fun _ _ => safe_ok _) fun _ => ?_
  refine safe_ite (fun _ => safe_ok _) fun _ => ?_
  refine safe_ite (fun _ => safe_ite (fun _ => safe_error _) fun _ =>
    (decodeBerOid_safe body).bind fun _ _ => safe_ok _) fun _ => ?_
  refine safe_ite (fun _ => emptyValue_safe _ _) fun _ => ?_
  refine safe_ite (fun _ => ?address) fun _ => ?_
  case address =>
    split
    · exact safe_ok _
    · exact safe_error _
  refine safe_ite (fun _ => hsmall _) fun _ => safe_ite (fun _ => hsmall _) fun _ => ?_
  refine safe_ite (fun _ => hsmall _) fun _ => safe_ite (fun _ => safe_ok _) fun _ => ?_
  refine safe_ite (fun _ => (decodeBerUnsigned_safe body).bind fun _ _ => safe_ok _) fun _ => ?_
  refine safe_ite (fun _ => emptyValue_safe _ _) fun _ => safe_ite (fun _ => emptyValue_safe _ _) ?_
  exact fun _ => safe_ite (fun _ => emptyValue_safe _ _) fun _ => safe_error _

theorem expectTlv_panic_iff : expectTlv tag data = .panic ↔ Overlong data := by
  rw [expectTlv, bind_eq_panic, decodeBerTlv_panic_iff]
  constructor
  · rintro (hpanic | ⟨⟨t, body, n⟩, hok, hpanic⟩)
    · exact hpanic
    · rw [ite_error_eq_panic, bind_eq_panic] at hpanic
      obtain ⟨-, hslice | ⟨rest, -, hrest⟩⟩ := hpanic
      · exact absurd hslice (Checked.safe_slice (decodeBerTlv_eq_ok hok).2.1 le_rfl)
      · cases hrest
  · exact .inl

theorem expectInteger_panic_iff : expectInteger data = .panic ↔ Overlong data := by
  rw [expectInteger, bind_eq_panic, expectTlv_panic_iff]
  refine or_iff_left ?_
  rintro ⟨found, -, hpanic⟩
  exact (decodeBerInteger_safe found.1).bind (fun _ _ => safe_ok _) hpanic

/-- Where values are read in the body of a variable binding. -/
inductive VarbindReads (vbBody : List UInt8) : List UInt8 → Prop
  | name : VarbindReads vbBody vbBody
  | value {found : List UInt8 × List UInt8} {oid : String}
      (hname : expectTlv berTagOid vbBody = .ok found) (hlen : found.1.length ≤ snmpMaxOidBytes)
      (hoid : decodeBerOid found.1 = .ok oid) : VarbindReads vbBody found.2

/-- Where values are read in a list of variable bindings, with the number of those already read. -/
inductive ListReads : ℕ → List UInt8 → List UInt8 → Prop
  | entry {read : ℕ} {list : List UInt8} (hne : list ≠ []) (hroom : read < snmpMaxParsedVarbinds) :
      ListReads read list list
  | inside {read : ℕ} {list d : List UInt8} {found : List UInt8 × List UInt8} (hne : list ≠ [])
      (hroom : read < snmpMaxParsedVarbinds) (hfound : expectTlv berTagSequence list = .ok found)
      (h : VarbindReads found.1 d) : ListReads read list d
  | later {read : ℕ} {list d : List UInt8} {found : List UInt8 × List UInt8} {varbind : SnmpVarbind}
      (hne : list ≠ []) (hroom : read < snmpMaxParsedVarbinds)
      (hfound : expectTlv berTagSequence list = .ok found)
      (hvarbind : parseVarbind found.1 = .ok varbind) (h : ListReads (read + 1) found.2 d) :
      ListReads read list d

/-- The numbers in front of a PDU's list, and the bytes from the list on. -/
def pduHead (pduTag : UInt8) (body : List UInt8) :
    Parsed (BitVec 32 × BitVec 32 × BitVec 32 × List UInt8) :=
  (expectInteger body).bind fun request =>
    (expectInteger request.2).bind fun status =>
      (expectInteger status.2).bind fun idx =>
        if isRequestPduType pduTag ∧ (status.1 ≠ 0 ∨ idx.1 ≠ 0) then .error .invalidBerEncoding
        else .ok (request.1, status.1, idx.1, idx.2)

/-- Where values are read in the body of a PDU. -/
inductive PduReads (pduTag : UInt8) (body : List UInt8) : List UInt8 → Prop
  | request : PduReads pduTag body body
  | status {request : BitVec 32 × List UInt8} (hrequest : expectInteger body = .ok request) :
      PduReads pduTag body request.2
  | index {request status : BitVec 32 × List UInt8} (hrequest : expectInteger body = .ok request)
      (hstatus : expectInteger request.2 = .ok status) : PduReads pduTag body status.2
  | list {head : BitVec 32 × BitVec 32 × BitVec 32 × List UInt8}
      (hhead : pduHead pduTag body = .ok head) : PduReads pduTag body head.2.2.2
  | inside {head : BitVec 32 × BitVec 32 × BitVec 32 × List UInt8} {list d : List UInt8}
      (hhead : pduHead pduTag body = .ok head)
      (hlist : decodeBerTlv head.2.2.2 = .ok (berTagSequence, list, head.2.2.2.length))
      (h : ListReads 0 list d) : PduReads pduTag body d

/-- Where values are read in a message. -/
inductive Reads (data : List UInt8) : List UInt8 → Prop
  | root (hlen : data.length ≤ snmpMaxMessageLen) : Reads data data
  | version {body : List UInt8} (hlen : data.length ≤ snmpMaxMessageLen)
      (hroot : decodeBerTlv data = .ok (berTagSequence, body, data.length)) : Reads data body
  | community {body : List UInt8} {version : BitVec 32 × List UInt8}
      (hlen : data.length ≤ snmpMaxMessageLen)
      (hroot : decodeBerTlv data = .ok (berTagSequence, body, data.length))
      (hversion : expectInteger body = .ok version) (h2c : version.1 = snmpVersion2c) :
      Reads data version.2
  | pdu {front : BitVec 32 × List UInt8 × List UInt8} (hfront : parseFront data = .ok front) :
      Reads data front.2.2
  | inside {front : BitVec 32 × List UInt8 × List UInt8} {pduTag : UInt8} {body d : List UInt8}
      (hfront : parseFront data = .ok front)
      (hpdu : decodeBerTlv front.2.2 = .ok (pduTag, body, front.2.2.length))
      (htype : isSupportedPduType pduTag = true) (h : PduReads pduTag body d) : Reads data d

theorem parseVarbind_panic_iff :
    parseVarbind body = .panic ↔ ∃ d, VarbindReads body d ∧ Overlong d := by
  rw [parseVarbind, bind_eq_panic, expectTlv_panic_iff]
  constructor
  · rintro (hname | ⟨found, hfound, hpanic⟩)
    · exact ⟨body, .name, hname⟩
    · obtain ⟨hlen, hpanic⟩ := ite_error_eq_panic.mp hpanic
      obtain ⟨oid, hoid, hpanic⟩ := (bind_safe_eq_panic (decodeBerOid_safe _)).mp hpanic
      refine ⟨found.2, .value hfound (by omega) hoid, ?_⟩
      rw [bind_eq_panic, decodeBerTlv_panic_iff] at hpanic
      rcases hpanic with hvalue | ⟨val, -, hpanic⟩
      · exact hvalue
      · refine absurd hpanic (safe_ite (fun _ => safe_error _) fun _ => ?_)
        exact (decodeValue_safe _ _).bind fun _ _ => safe_ok _
  · rintro ⟨d, hread, hlong⟩
    cases hread with
    | name => exact .inl hlong
    | value hname hlen hoid =>
      refine .inr ⟨_, hname, ?_⟩
      rw [if_neg (by omega), hoid, Checked.ok_bind, (decodeBerTlv_panic_iff _).mpr hlong]
      rfl

theorem parseVarbinds_panic_iff {read : ℕ} {list : List UInt8} :
    parseVarbinds read list = .panic ↔ ∃ d, ListReads read list d ∧ Overlong d := by
  fun_induction parseVarbinds read list with
  | case1 read =>
    constructor
    · rintro ⟨⟩
    · rintro ⟨d, hread, -⟩
      cases hread <;> contradiction
  | case2 read list hne hfull =>
    constructor
    · rintro ⟨⟩
    · rintro ⟨d, hread, -⟩
      cases hread <;> omega
  | case3 read list hne hroom ih =>
    rw [bind_eq_panic, expectTlv_panic_iff]
    constructor
    · rintro (hlong | ⟨found, hfound, hpanic⟩)
      · exact ⟨list, .entry hne (by omega), hlong⟩
      · rw [bind_eq_panic, parseVarbind_panic_iff] at hpanic
        rcases hpanic with ⟨d, hread, hlong⟩ | ⟨varbind, hvarbind, hpanic⟩
        · exact ⟨d, .inside hne (by omega) hfound hread, hlong⟩
        · rw [bind_eq_panic, ih] at hpanic
          rcases hpanic with ⟨d, hread, hlong⟩ | ⟨rest, -, hok⟩
          · exact ⟨d, .later hne (by omega) hfound hvarbind hread, hlong⟩
          · cases hok
    · rintro ⟨d, hread, hlong⟩
      cases hread with
      | entry _ _ => exact .inl hlong
      | inside _ _ hfound hread =>
        refine .inr ⟨_, hfound, ?_⟩
        rw [parseVarbind_panic_iff.mpr ⟨d, hread, hlong⟩]
        rfl
      | later _ _ hfound hvarbind hread =>
        refine .inr ⟨_, hfound, ?_⟩
        rw [hvarbind, Checked.ok_bind, (ih _).mpr ⟨d, hread, hlong⟩]
        rfl

theorem pduHead_panic_iff : pduHead tag body = .panic ↔
    Overlong body ∨ ∃ request, expectInteger body = .ok request ∧ (Overlong request.2 ∨
      ∃ status, expectInteger request.2 = .ok status ∧ Overlong status.2) := by
  have hlast : ∀ (request status : BitVec 32 × List UInt8),
      ((expectInteger status.2).bind fun idx =>
      if isRequestPduType tag ∧ (status.1 ≠ 0 ∨ idx.1 ≠ 0) then .error .invalidBerEncoding
      else .ok (request.1, status.1, idx.1, idx.2) :
        Parsed (BitVec 32 × BitVec 32 × BitVec 32 × List UInt8)) = .panic ↔ Overlong status.2 := by
    intro request status
    rw [bind_eq_panic, expectInteger_panic_iff]
    refine or_iff_left ?_
    rintro ⟨idx, -, hpanic⟩
    exact safe_ite (fun _ => safe_error _) (fun _ => safe_ok _) hpanic
  simp only [pduHead, bind_eq_panic, expectInteger_panic_iff, hlast]

theorem parsePdu_eq (pduTag : UInt8) (body : List UInt8) :
    parsePdu pduTag body = (pduHead pduTag body).bind fun head =>
      (decodeBerTlv head.2.2.2).bind fun list =>
        if list.1 ≠ berTagSequence ∨ list.2.2 ≠ head.2.2.2.length then .error .invalidBerEncoding
        else
          (parseVarbinds 0 list.2.1).bind fun varbinds =>
            if pduTag = snmpPduResponse ∧
                !responseErrorFieldsAreValid head.2.1 head.2.2.1 varbinds.length then
              .error .invalidBerEncoding
            else if pduTag = snmpPduGetBulkRequest ∧
                (head.2.1.toInt < 0 ∨ head.2.2.1.toInt < 0) then .error .invalidBerEncoding
            else .ok ⟨pduTag, head.1, head.2.1, head.2.2.1, varbinds⟩ := by
  unfold parsePdu pduHead
  cases expectInteger body with
  | ok request =>
    simp only [Checked.ok_bind]
    cases expectInteger request.2 with
    | ok status =>
      simp only [Checked.ok_bind]
      cases expectInteger status.2 with
      | ok idx =>
        simp only [Checked.ok_bind]
        split <;> rfl
      | error e => rfl
      | panic => rfl
    | error e => rfl
    | panic => rfl
  | error e => rfl
  | panic => rfl

theorem parsePdu_panic_iff : parsePdu tag body = .panic ↔
    ∃ d, PduReads tag body d ∧ Overlong d := by
  rw [parsePdu_eq, bind_eq_panic, pduHead_panic_iff]
  constructor
  · rintro ((hlong | ⟨request, hrequest, hlong | ⟨status, hstatus, hlong⟩⟩) | ⟨head, hhead, hpanic⟩)
    · exact ⟨body, .request, hlong⟩
    · exact ⟨_, .status hrequest, hlong⟩
    · exact ⟨_, .index hrequest hstatus, hlong⟩
    · rw [bind_eq_panic, decodeBerTlv_panic_iff] at hpanic
      rcases hpanic with hlong | ⟨⟨t, list, n⟩, hlist, hpanic⟩
      · exact ⟨_, .list hhead, hlong⟩
      · obtain ⟨hshape, hpanic⟩ := ite_error_eq_panic.mp hpanic
        obtain ⟨rfl, rfl⟩ : t = berTagSequence ∧ n = head.2.2.2.length := by
          simpa [not_or] using hshape
        rw [bind_eq_panic, parseVarbinds_panic_iff] at hpanic
        rcases hpanic with ⟨d, hread, hlong⟩ | ⟨varbinds, -, hpanic⟩
        · exact ⟨d, .inside hhead hlist hread, hlong⟩
        · exact absurd hpanic (safe_ite (fun _ => safe_error _) fun _ =>
            safe_ite (fun _ => safe_error _) fun _ => safe_ok _)
  · rintro ⟨d, hread, hlong⟩
    cases hread with
    | request => exact .inl (.inl hlong)
    | status hrequest => exact .inl (.inr ⟨_, hrequest, .inl hlong⟩)
    | index hrequest hstatus => exact .inl (.inr ⟨_, hrequest, .inr ⟨_, hstatus, hlong⟩⟩)
    | list hhead =>
      refine .inr ⟨_, hhead, ?_⟩
      rw [(decodeBerTlv_panic_iff _).mpr hlong]
      rfl
    | inside hhead hlist hread =>
      refine .inr ⟨_, hhead, ?_⟩
      rw [hlist, Checked.ok_bind, if_neg (by simp), parseVarbinds_panic_iff.mpr ⟨d, hread, hlong⟩]
      rfl

theorem parseFront_panic_iff : parseFront data = .panic ↔
    data.length ≤ snmpMaxMessageLen ∧ (Overlong data ∨
      ∃ body, decodeBerTlv data = .ok (berTagSequence, body, data.length) ∧ (Overlong body ∨
        ∃ version, expectInteger body = .ok version ∧ version.1 = snmpVersion2c ∧
          Overlong version.2)) := by
  rw [parseFront, ite_error_eq_panic, not_lt, bind_eq_panic, decodeBerTlv_panic_iff]
  refine and_congr_right fun _ => or_congr_right ?_
  constructor
  · rintro ⟨⟨t, body, n⟩, hroot, hpanic⟩
    obtain ⟨hshape, hpanic⟩ := ite_error_eq_panic.mp hpanic
    obtain ⟨rfl, rfl⟩ : t = berTagSequence ∧ n = data.length := by simpa [not_or] using hshape
    refine ⟨body, hroot, ?_⟩
    rw [bind_eq_panic, expectInteger_panic_iff] at hpanic
    refine hpanic.imp_right ?_
    rintro ⟨version, hversion, hpanic⟩
    obtain ⟨h2c, hpanic⟩ := ite_error_eq_panic.mp hpanic
    rw [bind_eq_panic, expectTlv_panic_iff] at hpanic
    rcases hpanic with hlong | ⟨community, -, hpanic⟩
    · exact ⟨version, hversion, not_not.mp h2c, hlong⟩
    · exact absurd hpanic (safe_ite (fun _ => safe_error _) fun _ => safe_ok _)
  · rintro ⟨body, hroot, hlong⟩
    refine ⟨_, hroot, ?_⟩
    rw [if_neg (by simp), bind_eq_panic, expectInteger_panic_iff]
    refine hlong.imp_right ?_
    rintro ⟨version, hversion, h2c, hlong⟩
    refine ⟨version, hversion, ?_⟩
    rw [if_neg (not_not.mpr h2c), expectTlv_panic_iff.mpr hlong]
    rfl

theorem parse_panic_iff :
    SnmpMessage.parse data = .panic ↔ ∃ d, Reads data d ∧ Overlong d := by
  rw [SnmpMessage.parse, bind_eq_panic, parseFront_panic_iff]
  constructor
  · rintro (⟨hlen, hlong | ⟨body, hroot, hlong | ⟨version, hversion, h2c, hlong⟩⟩⟩ |
      ⟨front, hfront, hpanic⟩)
    · exact ⟨data, .root hlen, hlong⟩
    · exact ⟨body, .version hlen hroot, hlong⟩
    · exact ⟨_, .community hlen hroot hversion h2c, hlong⟩
    · rw [bind_eq_panic, decodeBerTlv_panic_iff] at hpanic
      rcases hpanic with hlong | ⟨⟨t, body, n⟩, hpdu, hpanic⟩
      · exact ⟨_, .pdu hfront, hlong⟩
      · obtain ⟨hwhole, hpanic⟩ := ite_error_eq_panic.mp hpanic
        obtain ⟨htype, hpanic⟩ := ite_error_eq_panic.mp hpanic
        obtain rfl : n = front.2.2.length := not_not.mp hwhole
        rw [bind_eq_panic, parsePdu_panic_iff] at hpanic
        rcases hpanic with ⟨d, hread, hlong⟩ | ⟨pdu, -, hok⟩
        · exact ⟨d, .inside hfront hpdu (by simpa using htype) hread, hlong⟩
        · cases hok
  · rintro ⟨d, hread, hlong⟩
    cases hread with
    | root hlen => exact .inl ⟨hlen, .inl hlong⟩
    | version hlen hroot => exact .inl ⟨hlen, .inr ⟨_, hroot, .inl hlong⟩⟩
    | community hlen hroot hversion h2c =>
      exact .inl ⟨hlen, .inr ⟨_, hroot, .inr ⟨_, hversion, h2c, hlong⟩⟩⟩
    | pdu hfront =>
      refine .inr ⟨_, hfront, ?_⟩
      rw [(decodeBerTlv_panic_iff _).mpr hlong]
      rfl
    | inside hfront hpdu htype hread =>
      refine .inr ⟨_, hfront, ?_⟩
      rw [hpdu, Checked.ok_bind, if_neg (by simp), if_neg (by simp [htype]),
        parsePdu_panic_iff.mpr ⟨d, hread, hlong⟩]
      rfl

/-- A value decodes or is refused unless its length passes the end of `usize`, and a message unless
such a value is read in it. -/
theorem ber_decoding_faults_iff (data : List UInt8) :
    (Answers data ↔ ¬ Overlong data) ∧
    ((∃ m, SnmpMessage.parse data = .ok m) ∨ (∃ e, SnmpMessage.parse data = .error e) ↔
      ∀ d, Reads data d → ¬ Overlong d) := by
  refine ⟨answers_iff data, ?_⟩
  have hsafe : (∀ d, Reads data d → ¬ Overlong d) ↔ SnmpMessage.parse data ≠ .panic := by
    rw [ne_eq, parse_panic_iff]
    push Not
    rfl
  rw [hsafe]
  cases SnmpMessage.parse data <;> simp

/-- Ten bytes that announce the longest length there is. -/
theorem longest_length_overflows :
    decodeBerTlv (0x30 :: 0x88 :: List.replicate 8 0xff) = .panic ∧
    SnmpMessage.parse (0x30 :: 0x88 :: List.replicate 8 0xff) = .panic ∧
    ¬ ∀ data, Answers data := by
  have hpanic : decodeBerTlv (0x30 :: 0x88 :: List.replicate 8 0xff) = .panic := by decide +kernel
  refine ⟨hpanic, ?_, ?_⟩
  · rw [SnmpMessage.parse, parseFront, if_neg (by decide), hpanic]
    rfl
  · intro h
    rcases h (0x30 :: 0x88 :: List.replicate 8 0xff) with ⟨e, he⟩ | ⟨t, header, body, rest, hok, -⟩
    · rw [hpanic] at he
      cases he
    · rw [hpanic] at hok
      cases hok

end ToyTcpip.Snmp
