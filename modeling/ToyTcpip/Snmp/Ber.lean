import ToyTcpip.Bytes
import ToyTcpip.Lib.BigEndian

/-! BER lengths, integers and unsigned numbers of `snmp.rs`. Lengths are `usize`, of 64 bits. -/
namespace ToyTcpip.Snmp

open BigEndian
open Checked (index slice bind_eq_ok bind_of_eq_ok ite_error_eq_ok)

inductive SnmpError where
  | packetTooShort
  | invalidBerEncoding
  | unsupportedTag (tag : UInt8)
  | resourceLimitExceeded (resource : String)
  deriving DecidableEq, Repr

abbrev Parsed (α : Type) : Type := Checked SnmpError α

/-- A zero in front of another byte. -/
def zeroFill (b _ : UInt8) : Bool := b = 0

/-- A byte that only repeats the sign of the byte after it. -/
def signFill (b c : UInt8) : Bool :=
  (b = 0x00 ∧ c &&& 0x80 = 0) ∨ (b = 0xff ∧ c &&& 0x80 ≠ 0)

def encodeBerLength (len : ℕ) : List UInt8 :=
  if len < 128 then [UInt8.ofNat len]
  else
    let significant := trim zeroFill (bytes 8 len)
    (0x80 ||| UInt8.ofNat significant.length) :: significant

/-- The length a header announces and the bytes the header takes. -/
def decodeBerLength (data : List UInt8) (lenByte : UInt8) : Parsed (ℕ × ℕ) :=
  if lenByte &&& 0x80 = 0 then .ok (lenByte.toNat, 2)
  else
    let numOctets := (lenByte &&& 0x7F).toNat
    if numOctets = 0 ∨ numOctets > 8 then .error .invalidBerEncoding
    else if data.length < 2 + numOctets then .error .packetTooShort
    else
      (index data 2).bind fun first =>
        if first = 0 then .error .invalidBerEncoding
        else
          (slice data 2 (2 + numOctets)).bind fun octets =>
            if value octets < 128 then .error .invalidBerEncoding
            else .ok (value octets, 2 + numOctets)

/-- Tag, contents and total length of the value in front of `data`. The sum of header and contents
overflows for announced lengths near the end of `usize`. -/
def decodeBerTlv (data : List UInt8) : Parsed (UInt8 × List UInt8 × ℕ) :=
  if data.length < 2 then .error .packetTooShort
  else
    (index data 0).bind fun tag =>
      (index data 1).bind fun lenByte =>
        (decodeBerLength data lenByte).bind fun found =>
          if found.2 + found.1 ≥ 2 ^ 64 then .panic
          else if data.length < found.2 + found.1 then .error .packetTooShort
          else
            (slice data found.2 (found.2 + found.1)).bind fun body =>
              .ok (tag, body, found.2 + found.1)

/-- A value with its tag and length. -/
def encodeTlv (tag : UInt8) (body : List UInt8) : List UInt8 :=
  tag :: (encodeBerLength body.length ++ body)

/-- `(value << 8) | byte` over the bytes, from the sign of the first one. -/
def decodeBerInteger (bytes : List UInt8) : Parsed (BitVec 32) :=
  match bytes with
  | [] => .error .invalidBerEncoding
  | first :: rest =>
    if rest ≠ [] ∧ signFill first (rest.headD 0) then .error .invalidBerEncoding
    else if (first :: rest).length > 4 then .error .invalidBerEncoding
    else
      let start : BitVec 32 := if first &&& 0x80 ≠ 0 then -1 else 0
      .ok ((first :: rest).foldl (fun v b => (v <<< 8) ||| b.toBitVec.setWidth 32) start)

def integerContents (val : BitVec 32) : List UInt8 := trim signFill (bytes 4 val.toNat)

def berTagInteger : UInt8 := 0x02

def encodeBerInteger (val : BitVec 32) : List UInt8 := encodeTlv berTagInteger (integerContents val)

def decodeBerUnsigned (bytes : List UInt8) : Parsed (BitVec 64) :=
  match bytes with
  | [] => .error .invalidBerEncoding
  | first :: rest =>
    if first &&& 0x80 ≠ 0 then .error .invalidBerEncoding
    else if rest ≠ [] ∧ first = 0 ∧ (rest.headD 0) &&& 0x80 = 0 then .error .invalidBerEncoding
    else
      let magnitude := if first = 0 then rest else first :: rest
      if magnitude.length > 8 then .error .invalidBerEncoding
      else .ok (BitVec.ofNat 64 (value magnitude))

def unsignedContents (val : BitVec 64) : List UInt8 :=
  let content := trim zeroFill (bytes 8 val.toNat)
  if content.headD 0 &&& 0x80 ≠ 0 then 0 :: content else content

def encodeBerUnsigned (tag : UInt8) (val : BitVec 64) : List UInt8 :=
  encodeTlv tag (unsignedContents val)

/-! ### Lengths -/

theorem value_trim_zeroFill (bs : List UInt8) : value (trim zeroFill bs) = value bs := by
  refine trim_invariant (f := value) (fun b c rest h => ?_) bs
  obtain rfl : b = 0 := by simpa [zeroFill] using h
  rw [value_cons]
  simp

/-- The significant bytes of a positive number start with one that is not zero. -/
theorem head_trim_zeroFill (bs : List UInt8) (h : 0 < value bs) :
    ∃ b rest, trim zeroFill bs = b :: rest ∧ b ≠ 0 := by
  rw [← value_trim_zeroFill] at h
  have htrim := trimmed_trim zeroFill bs
  cases htr : trim zeroFill bs with
  | nil => simp [htr] at h
  | cons b rest =>
    refine ⟨b, rest, rfl, ?_⟩
    rintro rfl
    rw [htr] at htrim h
    cases rest with
    | nil => simp [value_cons] at h
    | cons c rest => simp [Trimmed, zeroFill] at htrim

theorem toNat_or_count {k : ℕ} (h : k ≤ 8) : (0x80 ||| UInt8.ofNat k).toNat = 128 + k := by
  have hk : (UInt8.ofNat k).toNat = k := by
    rw [UInt8.toNat_ofNat']
    omega
  rw [UInt8.or_comm, toNat_or_128 (by omega), hk, Nat.add_comm]

theorem encodeBerLength_length (len : ℕ) :
    1 ≤ (encodeBerLength len).length ∧ (encodeBerLength len).length ≤ 9 := by
  unfold encodeBerLength
  split
  · simp
  · have := length_trim_le zeroFill (bytes 8 len)
    rw [length_bytes] at this
    simp only [List.length_cons]
    omega

/-- The header of an encoded length announces it. -/
theorem decodeBerLength_encoded {len : ℕ} (h : len < 2 ^ 64) (tag : UInt8) (rest : List UInt8) :
    ∃ lenByte more, encodeBerLength len = lenByte :: more ∧
      decodeBerLength (tag :: (encodeBerLength len ++ rest)) lenByte =
        .ok (len, 1 + (encodeBerLength len).length) := by
  by_cases hsmall : len < 128
  · have hbyte : (UInt8.ofNat len).toNat = len := by
      rw [UInt8.toNat_ofNat']
      omega
    refine ⟨UInt8.ofNat len, [], by rw [encodeBerLength, if_pos hsmall], ?_⟩
    rw [decodeBerLength, if_pos ((and_128_eq_zero _).mpr (by omega)), hbyte, encodeBerLength,
      if_pos hsmall]
    rfl
  · have hvalue : value (bytes 8 len) = len := by
      rw [value_bytes]
      omega
    obtain ⟨b, more, htrim, hb⟩ := head_trim_zeroFill (bytes 8 len) (by omega)
    have hcount : (trim zeroFill (bytes 8 len)).length ≤ 8 := by
      simpa using length_trim_le zeroFill (bytes 8 len)
    have hsig : value (trim zeroFill (bytes 8 len)) = len := by rw [value_trim_zeroFill, hvalue]
    have hpos : 0 < (trim zeroFill (bytes 8 len)).length := by simp [htrim]
    have henc : encodeBerLength len = (0x80 ||| UInt8.ofNat (trim zeroFill (bytes 8 len)).length) ::
        trim zeroFill (bytes 8 len) := by rw [encodeBerLength, if_neg hsmall]
    generalize trim zeroFill (bytes 8 len) = sig at *
    have hnat := toNat_or_count hcount
    refine ⟨_, sig, henc, ?_⟩
    have hhigh : ¬ (0x80 ||| UInt8.ofNat sig.length) &&& 0x80 = 0 := fun h0 => by
      have := (and_128_eq_zero _).mp h0
      omega
    have hlow : ((0x80 ||| UInt8.ofNat sig.length) &&& 0x7F).toNat = sig.length := by
      rw [toNat_and_127, hnat]
      omega
    have hslice : (slice (tag :: (encodeBerLength len ++ rest)) 2 (2 + sig.length) : Parsed _) =
        .ok sig := by
      rw [henc]
      exact Checked.slice_middle [tag, _] sig rest
    have hfirst : (index (tag :: (encodeBerLength len ++ rest)) 2 : Parsed UInt8) = .ok b := by
      rw [henc, htrim]
      rfl
    rw [decodeBerLength, if_neg hhigh]
    simp only [hlow]
    rw [if_neg (by omega), if_neg (by rw [henc]; simp; omega), hfirst, Checked.ok_bind, if_neg hb,
      hslice, Checked.ok_bind, hsig, if_neg hsmall, henc, List.length_cons]
    congr 2
    omega

example : encodeBerLength 300 = [0x82, 1, 44] := by decide +kernel

/-- Bytes that start with one other than zero are the significant ones of their value. -/
theorem trim_bytes_value {b : UInt8} {bs : List UInt8} (hb : b ≠ 0) (hlen : (b :: bs).length ≤ 8) :
    trim zeroFill (bytes 8 (value (b :: bs))) = b :: bs := by
  have hbytes := bytes_append (8 - (b :: bs).length) 0 (b :: bs)
  rw [Nat.sub_add_cancel hlen, Nat.zero_mul, Nat.zero_add, bytes_zero] at hbytes
  rw [hbytes, trim_replicate_append (by simp [zeroFill]) (by simp [zeroFill]) (by simp)]
  apply trim_of_trimmed
  cases bs with
  | nil => trivial
  | cons c rest => simpa [Trimmed, zeroFill] using hb

/-- A length that was accepted stands there in its one encoding. -/
theorem decodeBerLength_eq_ok {tag lenByte : UInt8} {rest : List UInt8} {len headerLen : ℕ}
    (h : decodeBerLength (tag :: lenByte :: rest) lenByte = .ok (len, headerLen)) :
    headerLen = 1 + (encodeBerLength len).length ∧ headerLen ≤ (tag :: lenByte :: rest).length ∧
      tag :: lenByte :: rest = tag :: (encodeBerLength len ++
        (tag :: lenByte :: rest).drop headerLen) := by
  unfold decodeBerLength at h
  split at h
  · rename_i hhigh
    obtain ⟨rfl, rfl⟩ : lenByte.toNat = len ∧ 2 = headerLen := by simpa using h
    have hsmall := (and_128_eq_zero lenByte).mp hhigh
    have henc : encodeBerLength lenByte.toNat = [lenByte] := by
      rw [encodeBerLength, if_pos hsmall, UInt8.ofNat_toNat]
    rw [henc]
    simp
  · rename_i hhigh
    dsimp only at h
    obtain ⟨hcount, h⟩ := ite_error_eq_ok.mp h
    obtain ⟨hlen, h⟩ := ite_error_eq_ok.mp h
    obtain ⟨first, hfirst, h⟩ := bind_eq_ok.mp h
    obtain ⟨hne, h⟩ := ite_error_eq_ok.mp h
    obtain ⟨octets, hslice, h⟩ := bind_eq_ok.mp h
    obtain ⟨hlarge, h⟩ := ite_error_eq_ok.mp h
    obtain ⟨rfl, rfl⟩ : value octets = len ∧ 2 + (lenByte &&& 0x7F).toNat = headerLen := by
      simpa using h
    obtain ⟨hstop, hle, hdrop⟩ := Checked.drop_of_slice hslice
    have hoctets : octets.length = (lenByte &&& 0x7F).toNat := by omega
    rw [toNat_and_127] at hoctets hcount hlen hdrop hle ⊢
    have hbyte := lenByte.toNat_lt
    have hbig : 128 ≤ lenByte.toNat := by
      by_contra hsmall
      exact hhigh ((and_128_eq_zero lenByte).mpr (by omega))
    cases octets with
    | nil => simp at hoctets; omega
    | cons b more =>
      have hb : b = first := by
        have hget := Checked.index_eq_ok.mp hfirst
        rw [← Nat.add_zero 2, ← List.getElem?_drop, hdrop] at hget
        simpa using hget
      have htrim := trim_bytes_value (hb ▸ hne) (show (b :: more).length ≤ 8 by omega)
      have hmark : 0x80 ||| UInt8.ofNat (b :: more).length = lenByte := by
        apply UInt8.toNat_inj.mp
        rw [toNat_or_count (by omega)]
        omega
      have henc : encodeBerLength (value (b :: more)) = lenByte :: b :: more := by
        rw [encodeBerLength, if_neg hlarge]
        simp only [htrim, hmark]
      rw [henc]
      refine ⟨by simp only [List.length_cons] at hoctets ⊢; omega, hle, ?_⟩
      simp only [List.drop_succ_cons, List.drop_zero] at hdrop
      rw [List.cons_append, ← hdrop]

theorem encodeTlv_length (tag : UInt8) (body : List UInt8) :
    (encodeTlv tag body).length = 1 + (encodeBerLength body.length).length + body.length := by
  simp [encodeTlv]
  omega

/-- A value is read from where it was written. -/
theorem decodeBerTlv_encodeTlv (tag : UInt8) {body : List UInt8} (h : body.length + 10 < 2 ^ 64)
    (rest : List UInt8) :
    decodeBerTlv (encodeTlv tag body ++ rest) = .ok (tag, body, (encodeTlv tag body).length) := by
  obtain ⟨lenByte, more, henc, hlen⟩ := decodeBerLength_encoded
    (show body.length < 2 ^ 64 by omega) tag (body ++ rest)
  have hbound := encodeBerLength_length body.length
  have hdata : encodeTlv tag body ++ rest =
      tag :: (encodeBerLength body.length ++ (body ++ rest)) := by simp [encodeTlv]
  have hfirst : (index (tag :: (encodeBerLength body.length ++ (body ++ rest))) 1 : Parsed UInt8) =
      .ok lenByte := by
    rw [henc]
    rfl
  have hslice := Checked.slice_middle (ε := SnmpError)
    (tag :: encodeBerLength body.length) body rest
  rw [List.length_cons, Nat.add_comm _ 1, List.cons_append] at hslice
  rw [hdata, decodeBerTlv, if_neg (by simp only [List.length_cons, List.length_append]; omega),
    Checked.index_cons_zero, Checked.ok_bind, hfirst,
    Checked.ok_bind, hlen, Checked.ok_bind]
  simp only
  rw [if_neg (by omega), if_neg (by simp; omega), hslice, Checked.ok_bind, encodeTlv_length]

/-- A value that was read stands there in its one encoding. -/
theorem decodeBerTlv_eq_ok {data body : List UInt8} {tag : UInt8} {n : ℕ}
    (h : decodeBerTlv data = .ok (tag, body, n)) :
    n = (encodeTlv tag body).length ∧ n ≤ data.length ∧
    data = encodeTlv tag body ++ data.drop n := by
  obtain ⟨hshort, h⟩ := ite_error_eq_ok.mp h
  obtain ⟨t, ht, h⟩ := bind_eq_ok.mp h
  obtain ⟨lenByte, hbyte, h⟩ := bind_eq_ok.mp h
  obtain ⟨⟨len, headerLen⟩, hlen, h⟩ := bind_eq_ok.mp h
  split at h
  · cases h
  obtain ⟨hroom, h⟩ := ite_error_eq_ok.mp h
  obtain ⟨b, hslice, h⟩ := bind_eq_ok.mp h
  cases h
  match data, hshort with
  | x :: y :: rest, _ =>
    obtain rfl : x = tag := by simpa [index] using ht
    obtain rfl : y = lenByte := by simpa [index] using hbyte
    obtain ⟨hhead, -, hdata⟩ := decodeBerLength_eq_ok hlen
    obtain ⟨hstop, hle, hdrop⟩ := Checked.drop_of_slice hslice
    dsimp only at hstop hle hdrop
    obtain rfl : len = body.length := by omega
    refine ⟨by rw [encodeTlv_length]; omega, hle, ?_⟩
    rw [encodeTlv, List.cons_append, List.append_assoc, ← hdrop]
    exact hdata

/-! ### Integers -/

/-- The loop of `decode_ber_integer`. -/
def shiftIn (v : BitVec 32) (bs : List UInt8) : BitVec 32 :=
  bs.foldl (fun v b => (v <<< 8) ||| b.toBitVec.setWidth 32) v

def signStart (first : UInt8) : BitVec 32 := if first &&& 0x80 ≠ 0 then -1 else 0

theorem toNat_shift_or (v : BitVec 32) (b : UInt8) :
    ((v <<< 8) ||| b.toBitVec.setWidth 32).toNat = (v.toNat * 256 + b.toNat) % 2 ^ 32 := by
  have hb := b.toNat_lt
  have hv := v.isLt
  have hset : (b.toBitVec.setWidth 32).toNat = b.toNat := by
    rw [BitVec.toNat_setWidth, UInt8.toNat_toBitVec]
    omega
  have hshift : v.toNat <<< 8 % 2 ^ 32 = 2 ^ 8 * (v.toNat % 2 ^ 24) := by
    rw [Nat.shiftLeft_eq]
    omega
  rw [BitVec.toNat_or, BitVec.toNat_shiftLeft, hset, hshift,
    ← Nat.two_pow_add_eq_or_of_lt (show b.toNat < 2 ^ 8 by omega)]
  omega

theorem toNat_shiftIn (v : BitVec 32) (bs : List UInt8) :
    (shiftIn v bs).toNat = (v.toNat * 256 ^ bs.length + value bs) % 2 ^ 32 := by
  induction bs generalizing v with
  | nil => simp [shiftIn, Nat.mod_eq_of_lt v.isLt]
  | cons b rest ih =>
    have hcons : shiftIn v (b :: rest) = shiftIn ((v <<< 8) ||| b.toBitVec.setWidth 32) rest := rfl
    rw [hcons, ih, toNat_shift_or, value_cons, List.length_cons, pow_succ]
    conv_lhs => rw [Nat.add_mod, Nat.mul_mod, Nat.mod_mod, ← Nat.mul_mod, ← Nat.add_mod]
    congr 1
    ring

theorem shiftIn_fill {b : UInt8} (h : b = 0x00 ∨ b = 0xff) (rest : List UInt8) :
    shiftIn (signStart b) (b :: rest) = shiftIn (signStart b) rest := by
  have hfill : ((signStart b) <<< 8) ||| b.toBitVec.setWidth 32 = signStart b := by
    rcases h with rfl | rfl <;> decide
  change shiftIn (((signStart b) <<< 8) ||| b.toBitVec.setWidth 32) rest = _
  rw [hfill]

/-- The number the contents of an integer spell, with their first bit as the sign. -/
def signed (bs : List UInt8) : BitVec 32 := shiftIn (signStart (bs.headD 0)) bs

theorem signFill_eq_true {b c : UInt8} (h : signFill b c = true) :
    (b = 0x00 ∨ b = 0xff) ∧ signStart b = signStart c := by
  simp only [signFill, decide_eq_true_eq] at h
  obtain ⟨rfl, hc⟩ | ⟨rfl, hc⟩ := h
  · exact ⟨.inl rfl, by rw [signStart, signStart, if_neg (by decide), if_neg (by simpa using hc)]⟩
  · exact ⟨.inr rfl, by rw [signStart, signStart, if_pos (by decide), if_pos hc]⟩

theorem signed_trim (bs : List UInt8) : signed (trim signFill bs) = signed bs := by
  refine trim_invariant (fun b c rest h => ?_) bs
  obtain ⟨hb, hstart⟩ := signFill_eq_true h
  change shiftIn (signStart b) (b :: c :: rest) = shiftIn (signStart c) (c :: rest)
  rw [shiftIn_fill hb, hstart]

theorem decodeBerInteger_of_trimmed {bs : List UInt8} (hne : bs ≠ []) (htrim : Trimmed signFill bs)
    (hlen : bs.length ≤ 4) : decodeBerInteger bs = .ok (signed bs) := by
  obtain ⟨first, rest, rfl⟩ := List.exists_cons_of_ne_nil hne
  have hfirst : ¬ (rest ≠ [] ∧ signFill first (rest.headD 0) = true) := by
    cases rest with
    | nil => simp
    | cons c rest => simpa [Trimmed] using htrim
  rw [decodeBerInteger, if_neg hfirst, if_neg (by omega)]
  rfl

theorem decodeBerInteger_contents (val : BitVec 32) :
    decodeBerInteger (integerContents val) = .ok val := by
  have hlen := length_trim_le signFill (bytes 4 val.toNat)
  rw [length_bytes] at hlen
  rw [integerContents, decodeBerInteger_of_trimmed (trim_ne_nil (by simp [bytes]))
    (trimmed_trim signFill _) hlen, signed_trim]
  congr 1
  apply BitVec.eq_of_toNat_eq
  have hval := val.isLt
  rw [signed, toNat_shiftIn, length_bytes, value_bytes]
  omega

/-- Contents of at most four bytes are the end of the four bytes of their number, after bytes that
repeat the sign. -/
theorem bytes_signed (first : UInt8) (rest : List UInt8) (hlen : (first :: rest).length ≤ 4) :
    ∃ fill, signFill fill fill = true ∧ signFill fill first = true ∧
      bytes 4 (signed (first :: rest)).toNat =
        List.replicate (4 - (first :: rest).length) fill ++ first :: rest := by
  have hlt := value_lt (first :: rest)
  have hnat : (signed (first :: rest)).toNat =
      ((signStart first).toNat * 256 ^ (first :: rest).length + value (first :: rest)) % 2 ^ 32 :=
    toNat_shiftIn _ _
  have hpos : 1 ≤ (first :: rest).length := by simp
  by_cases hneg : first &&& 0x80 ≠ 0
  · have hbytes := bytes_append (4 - (first :: rest).length)
      (256 ^ (4 - (first :: rest).length) - 1) (first :: rest)
    rw [Nat.sub_add_cancel hlen, bytes_max] at hbytes
    refine ⟨255, by decide, by simpa [signFill] using hneg, ?_⟩
    rw [← hbytes, hnat, signStart, if_pos hneg]
    congr 1
    generalize (first :: rest).length = n at *
    have hn : n = 1 ∨ n = 2 ∨ n = 3 ∨ n = 4 := by omega
    rcases hn with rfl | rfl | rfl | rfl <;> simp at hlt ⊢ <;> omega
  · have hbytes := bytes_append (4 - (first :: rest).length) 0 (first :: rest)
    rw [Nat.sub_add_cancel hlen, bytes_zero] at hbytes
    refine ⟨0, by decide, by simpa [signFill] using hneg, ?_⟩
    rw [← hbytes, hnat, signStart, if_neg hneg]
    congr 1
    generalize (first :: rest).length = n at *
    have hn : n = 1 ∨ n = 2 ∨ n = 3 ∨ n = 4 := by omega
    rcases hn with rfl | rfl | rfl | rfl <;> simp at hlt ⊢ <;> omega

theorem integerContents_of_decode {bs : List UInt8} {val : BitVec 32}
    (h : decodeBerInteger bs = .ok val) : integerContents val = bs := by
  cases bs with
  | nil => cases h
  | cons first rest =>
    obtain ⟨hfirst, h⟩ := ite_error_eq_ok.mp h
    obtain ⟨hlen, h⟩ := ite_error_eq_ok.mp h
    obtain rfl : signed (first :: rest) = val := Checked.ok.inj h
    obtain ⟨fill, hself, hhead, hbytes⟩ := bytes_signed first rest (by omega)
    rw [integerContents, hbytes, trim_replicate_append hself (by simpa using hhead) (by simp)]
    apply trim_of_trimmed
    cases rest with
    | nil => trivial
    | cons c rest => simpa [Trimmed] using hfirst

example : encodeBerInteger (-129) = [2, 2, 255, 127] := by decide +kernel

/-! ### Unsigned numbers -/

theorem unsignedContents_cons {val : BitVec 64} {first : UInt8} {rest : List UInt8}
    (h : trim zeroFill (bytes 8 val.toNat) = first :: rest) :
    unsignedContents val =
      if first &&& 0x80 ≠ 0 then 0 :: first :: rest else first :: rest := by
  simp only [unsignedContents, h]
  rfl

theorem decodeBerUnsigned_contents (val : BitVec 64) :
    decodeBerUnsigned (unsignedContents val) = .ok val := by
  have hval := val.isLt
  have hlen := length_trim_le zeroFill (bytes 8 val.toNat)
  rw [length_bytes] at hlen
  have hvalue : value (trim zeroFill (bytes 8 val.toNat)) = val.toNat := by
    rw [value_trim_zeroFill, value_bytes]
    omega
  have htrim := trimmed_trim zeroFill (bytes 8 val.toNat)
  obtain ⟨first, rest, hcons⟩ := List.exists_cons_of_ne_nil
    (show trim zeroFill (bytes 8 val.toNat) ≠ [] from trim_ne_nil (by simp [bytes]))
  rw [hcons] at hlen hvalue htrim
  rw [unsignedContents_cons hcons]
  have hval : BitVec.ofNat 64 (value (first :: rest)) = val := by
    rw [hvalue, BitVec.ofNat_toNat, BitVec.setWidth_eq]
  by_cases hhigh : first &&& 0x80 ≠ 0
  · rw [if_pos hhigh, decodeBerUnsigned, if_neg (by decide), if_neg (by simpa using hhigh)]
    simp only [if_true]
    rw [if_neg (by omega), hval]
  · rw [if_neg hhigh, decodeBerUnsigned, if_neg hhigh]
    by_cases hzero : first = 0
    · subst hzero
      cases rest with
      | nil =>
        rw [← hval]
        rfl
      | cons c rest => simp [Trimmed, zeroFill] at htrim
    · simp only [hzero, false_and, and_false, if_false]
      rw [if_neg (by omega), hval]

/-- A magnitude of at most eight bytes that starts with one other than zero. -/
theorem unsignedContents_value {b : UInt8} {bs : List UInt8} (hb : b ≠ 0)
    (hlen : (b :: bs).length ≤ 8) :
    unsignedContents (BitVec.ofNat 64 (value (b :: bs))) =
      if b &&& 0x80 ≠ 0 then 0 :: b :: bs else b :: bs := by
  apply unsignedContents_cons
  have hlt : value (b :: bs) < 256 ^ 8 :=
    (value_lt _).trans_le (Nat.pow_le_pow_right (by decide) hlen)
  rw [BitVec.toNat_ofNat, Nat.mod_eq_of_lt (by omega), trim_bytes_value hb hlen]

theorem unsignedContents_of_decode {bs : List UInt8} {val : BitVec 64}
    (h : decodeBerUnsigned bs = .ok val) : unsignedContents val = bs := by
  cases bs with
  | nil => cases h
  | cons first rest =>
    obtain ⟨hhigh, h⟩ := ite_error_eq_ok.mp h
    obtain ⟨hmin, h⟩ := ite_error_eq_ok.mp h
    obtain ⟨hlen, h⟩ := ite_error_eq_ok.mp h
    have h := Checked.ok.inj h
    by_cases hzero : first = 0
    · subst hzero
      simp only [if_true] at h hlen
      cases rest with
      | nil =>
        subst h
        decide
      | cons c more =>
        have hc : c &&& 0x80 ≠ 0 := by simpa using hmin
        have hne : c ≠ 0 := by
          rintro rfl
          exact hc (by decide)
        rw [← h, unsignedContents_value hne (by omega), if_pos hc]
    · simp only [hzero, if_false] at h hlen
      rw [← h, unsignedContents_value hzero (by omega), if_neg hhigh]

end ToyTcpip.Snmp
