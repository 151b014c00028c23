import ToyTcpip.Bytes
import ToyTcpip.Lib.BigEndian

/-! WebSocket frames of `websocket.rs`. -/
namespace ToyTcpip.WebSocket

open Checked (index slice Safe)

inductive WebSocketError where
  | frameTooShort (len : ℕ)
  | invalidLength (specified available : ℕ)
  deriving DecidableEq

abbrev MaskKey : Type := Vector UInt8 4

structure WebSocketFrame where
  fin : Bool
  opcode : UInt8
  masked : Bool
  maskKey : Option MaskKey
  payload : List UInt8
  deriving DecidableEq

/-- What `parse` has read when it comes to the payload, and where the payload starts. -/
structure Header where
  fin : Bool
  opcode : UInt8
  masked : Bool
  maskKey : Option MaskKey
  payloadLen : ℕ
  offset : ℕ
  deriving DecidableEq

/-- The length of the payload and the position after it. -/
def readLength (data : List UInt8) (initialLen : ℕ) : Checked WebSocketError (ℕ × ℕ) :=
  if initialLen = 126 then
    if data.length < 4 then .error (.frameTooShort data.length)
    else (slice data 2 4).bind fun len => .ok (BigEndian.value len, 4)
  else if initialLen = 127 then
    if data.length < 10 then .error (.frameTooShort data.length)
    else (slice data 2 10).bind fun len => .ok (BigEndian.value len, 10)
  else .ok (initialLen, 2)

def readMaskKey (data : List UInt8) (masked : Bool) (offset : ℕ) :
    Checked WebSocketError (Option MaskKey × ℕ) :=
  if masked then
    if data.length < offset + 4 then .error (.frameTooShort data.length)
    else
      (index data offset).bind fun a => (index data (offset + 1)).bind fun b =>
      (index data (offset + 2)).bind fun c => (index data (offset + 3)).bind fun d =>
        .ok (some #v[a, b, c, d], offset + 4)
  else .ok (none, offset)

def readHeader (data : List UInt8) : Checked WebSocketError Header :=
  if data.length < 2 then .error (.frameTooShort data.length)
  else
    (index data 0).bind fun b₀ => (index data 1).bind fun b₁ =>
    let masked := decide (b₁ &&& 0x80 ≠ 0)
    (readLength data (b₁ &&& 0x7F).toNat).bind fun len =>
    (readMaskKey data masked len.2).bind fun key =>
      .ok ⟨decide (b₀ &&& 0x80 ≠ 0), b₀ &&& 0x0F, masked, key.1, len.1, key.2⟩

/-- `usize` addition. -/
def usizeAdd {ε : Type} (a b : ℕ) : Checked ε ℕ := if a + b < 2 ^ 64 then .ok (a + b) else .panic

def parse (data : List UInt8) : Checked WebSocketError WebSocketFrame :=
  (readHeader data).bind fun h =>
  (usizeAdd h.offset h.payloadLen).bind fun last =>
  if data.length < last then .error (.invalidLength h.payloadLen (data.length - h.offset))
  else (slice data h.offset last).bind fun payload =>
    .ok ⟨h.fin, h.opcode, h.masked, h.maskKey, payload⟩

def xorMask (key : MaskKey) (payload : List UInt8) : List UInt8 :=
  payload.mapIdx fun i b => b ^^^ key[i % 4]

/-- The payload, masked if there is a key. -/
def applyMask : Option MaskKey → List UInt8 → List UInt8
  | some key, payload => xorMask key payload
  | none, payload => payload

def maskBit (masked : Bool) : UInt8 := if masked then 0x80 else 0

def lengthBytes (masked : Bool) (len : ℕ) : List UInt8 :=
  if len ≤ 125 then [maskBit masked ||| .ofNat len]
  else if len ≤ 65535 then (maskBit masked ||| 126) :: BigEndian.bytes 2 len
  else (maskBit masked ||| 127) :: BigEndian.bytes 8 len

def keyBytes : Option MaskKey → List UInt8
  | some key => key.toList
  | none => []

/-- What `serialize` writes before the payload. -/
def headerBytes (fin : Bool) (opcode : UInt8) (masked : Bool) (maskKey : Option MaskKey) (len : ℕ) :
    List UInt8 :=
  ((if fin then 0x80 else 0) ||| (opcode &&& 0x0F)) ::
    (lengthBytes masked len ++ keyBytes maskKey)

namespace WebSocketFrame

def serialize (f : WebSocketFrame) : List UInt8 :=
  headerBytes f.fin f.opcode f.masked f.maskKey f.payload.length ++ applyMask f.maskKey f.payload

def unmaskedPayload (f : WebSocketFrame) : List UInt8 := applyMask f.maskKey f.payload

end WebSocketFrame

variable {data payload rest : List UInt8} {key : MaskKey} {maskKey : Option MaskKey} {h : Header}
  {f : WebSocketFrame} {masked fin : Bool} {opcode : UInt8} {i len n : ℕ}

/-! ### The mask -/

@[simp] theorem length_xorMask : (xorMask key payload).length = payload.length := List.length_mapIdx

@[simp] theorem length_applyMask : (applyMask maskKey payload).length = payload.length := by
  cases maskKey with
  | none => rfl
  | some key => exact length_xorMask

@[simp] theorem xorMask_xorMask : xorMask key (xorMask key payload) = payload := by
  refine List.ext_getElem (by simp) fun i _ _ => ?_
  simp only [xorMask, List.getElem_mapIdx]
  rw [UInt8.xor_assoc, UInt8.xor_self, UInt8.xor_zero]

theorem applyMask_applyMask : applyMask maskKey (applyMask maskKey payload) = payload := by
  cases maskKey with
  | none => rfl
  | some key => exact xorMask_xorMask

theorem eq_zero_of_xor_eq {b k : UInt8} (h : b ^^^ k = b) : k = 0 := by
  rw [← UInt8.zero_xor (a := k), ← UInt8.xor_self (a := b), UInt8.xor_assoc, h]

/-- Masking changes nothing exactly when every byte of the key that is used is zero. -/
theorem xorMask_eq_self_iff : xorMask key payload = payload ↔
    ∀ i < payload.length, key[i % 4] = 0 := by
  constructor
  · intro h i hi
    have hbyte : (xorMask key payload)[i]? = payload[i]? := by rw [h]
    rw [xorMask, List.getElem?_mapIdx, List.getElem?_eq_getElem hi] at hbyte
    exact eq_zero_of_xor_eq (Option.some.inj hbyte)
  · intro h
    refine List.ext_getElem (by simp) fun i _ hi => ?_
    simp [xorMask, h i hi]

/-! ### Reading what was written -/

theorem readMaskKey_of_drop (hd : data.drop i = keyBytes maskKey ++ rest) :
    readMaskKey data maskKey.isSome i = .ok (maskKey, i + (keyBytes maskKey).length) := by
  cases maskKey with
  | none => rfl
  | some key =>
    obtain ⟨l, hl⟩ := key
    obtain ⟨a, b, c, d, hkey⟩ := length_eq_four (l := l.toList) (by simpa using hl)
    have hlist : l.toList.toArray = l := Array.toArray_toList
    obtain rfl : l = #[a, b, c, d] := by rw [← hlist, hkey]
    have hlen := congrArg List.length hd
    have hb := Checked.drop_succ_of_drop hd
    have hc := Checked.drop_succ_of_drop hb
    have hd' := Checked.drop_succ_of_drop hc
    simp only [List.length_drop, List.length_append, keyBytes] at hlen
    rw [readMaskKey, Option.isSome_some, if_pos rfl, if_neg (by simp at hlen; omega),
      Checked.bind_of_eq_ok _ (Checked.index_of_drop hd),
      Checked.bind_of_eq_ok _ (Checked.index_of_drop hb),
      Checked.bind_of_eq_ok _ (Checked.index_of_drop hc),
      Checked.bind_of_eq_ok _ (Checked.index_of_drop hd')]
    rfl

example : lengthBytes false 126 = [126, 0, 126] := by decide +kernel

theorem length_bits (masked : Bool) (hn : n < 128) :
    ((maskBit masked ||| UInt8.ofNat n) &&& 0x7F).toNat = n ∧
      decide ((maskBit masked ||| UInt8.ofNat n) &&& 0x80 ≠ 0) = masked := by
  have hall : ∀ masked : Bool, ∀ n < 128, ((maskBit masked ||| UInt8.ofNat n) &&& 0x7F).toNat = n ∧
      decide ((maskBit masked ||| UInt8.ofNat n) &&& 0x80 ≠ 0) = masked := by
    decide +kernel
  exact hall masked n hn

/-- A length as it is written has its form in seven bits, then up to eight bytes of its own. -/
theorem readLength_lengthBytes (masked : Bool) (hlen : len < 2 ^ 64) :
    ∃ b₁ ext, lengthBytes masked len = b₁ :: ext ∧ decide (b₁ &&& 0x80 ≠ 0) = masked ∧
      ∀ (b₀ : UInt8) (rest : List UInt8), readLength (b₀ :: b₁ :: (ext ++ rest))
        (b₁ &&& 0x7F).toNat =
        .ok (len, 2 + ext.length) := by
  unfold lengthBytes
  by_cases hshort : len ≤ 125
  · rw [if_pos hshort]
    obtain ⟨hbits, hmasked⟩ := @length_bits len masked (by omega)
    refine ⟨_, _, rfl, hmasked, fun b₀ rest => ?_⟩
    rw [hbits, readLength, if_neg (by omega), if_neg (by omega)]
    rfl
  rw [if_neg hshort]
  by_cases hword : len ≤ 65535
  · rw [if_pos hword]
    obtain ⟨hbits, hmasked⟩ := @length_bits 126 masked (by omega)
    refine ⟨_, _, rfl, hmasked, fun b₀ rest => ?_⟩
    have hdrop : (b₀ :: (maskBit masked ||| 126) :: (BigEndian.bytes 2 len ++ rest)).drop 2 =
      BigEndian.bytes 2 len ++ rest := rfl
    have hslice := @Checked.slice_of_drop WebSocketError _ _ _ _ _ (by simp) hdrop
    rw [BigEndian.length_bytes] at hslice
    change readLength _ ((maskBit masked ||| UInt8.ofNat 126) &&& 0x7F).toNat = _
    rw [hbits, readLength, if_pos rfl, if_neg (by simp), hslice, Checked.ok_bind,
      BigEndian.value_bytes, Nat.mod_eq_of_lt (by omega), BigEndian.length_bytes]
  · rw [if_neg hword]
    obtain ⟨hbits, hmasked⟩ := @length_bits 127 masked (by omega)
    refine ⟨_, _, rfl, hmasked, fun b₀ rest => ?_⟩
    have hdrop : (b₀ :: (maskBit masked ||| 127) :: (BigEndian.bytes 8 len ++ rest)).drop 2 =
      BigEndian.bytes 8 len ++ rest := rfl
    have hslice := @Checked.slice_of_drop WebSocketError _ _ _ _ _ (by simp) hdrop
    rw [BigEndian.length_bytes] at hslice
    change readLength _ ((maskBit masked ||| UInt8.ofNat 127) &&& 0x7F).toNat = _
    rw [hbits, readLength, if_neg (by decide), if_pos rfl, if_neg (by simp), hslice,
      Checked.ok_bind, BigEndian.value_bytes, Nat.mod_eq_of_lt (hlen.trans_eq (by norm_num)),
      BigEndian.length_bytes]

theorem fin_bits (fin : Bool) (opcode : UInt8) :
    decide (((if fin then 0x80 else 0) ||| (opcode &&& 0x0F)) &&& 0x80 ≠ 0) = fin ∧
      ((if fin then 0x80 else 0) ||| (opcode &&& 0x0F)) &&& 0x0F = opcode &&& 0x0F := by
  cases fin
  · exact forall_uint8 (P := fun opcode => decide ((0 ||| (opcode &&& 0x0F)) &&& 0x80 ≠ 0) = false ∧
      (0 ||| (opcode &&& 0x0F)) &&& 0x0F = opcode &&& 0x0F) (by decide +kernel) opcode
  · exact forall_uint8 (P := fun opcode =>
      decide ((0x80 ||| (opcode &&& 0x0F)) &&& 0x80 ≠ 0) = true ∧
      (0x80 ||| (opcode &&& 0x0F)) &&& 0x0F = opcode &&& 0x0F) (by decide +kernel) opcode

theorem readHeader_headerBytes (hlen : len < 2 ^ 64) :
    readHeader (headerBytes fin opcode maskKey.isSome maskKey len ++ rest) =
      .ok ⟨fin, opcode &&& 0x0F, maskKey.isSome, maskKey, len,
        (headerBytes fin opcode maskKey.isSome maskKey len).length⟩ := by
  obtain ⟨b₁, ext, hbytes, hmasked, hread⟩ := readLength_lengthBytes maskKey.isSome hlen
  obtain ⟨hfin, hopcode⟩ := fin_bits fin opcode
  have hkey : (headerBytes fin opcode maskKey.isSome maskKey len ++ rest).drop (2 + ext.length) =
      keyBytes maskKey ++ rest := by
    rw [headerBytes, hbytes, Nat.add_comm]
    simp
  have hlength : (headerBytes fin opcode maskKey.isSome maskKey len).length =
      2 + ext.length + (keyBytes maskKey).length := by
    rw [headerBytes, hbytes]
    simp
    omega
  have hmask := readMaskKey_of_drop hkey
  rw [hlength]
  have hcons : headerBytes fin opcode maskKey.isSome maskKey len ++ rest =
      ((if fin then 0x80 else 0) ||| (opcode &&& 0x0F)) :: b₁ ::
        (ext ++ (keyBytes maskKey ++ rest)) := by
    rw [headerBytes, hbytes]
    simp
  rw [hcons] at hmask ⊢
  rw [readHeader, if_neg (by simp), Checked.index_cons_zero, Checked.ok_bind,
    Checked.index_cons_succ, Checked.index_cons_zero, Checked.ok_bind]
  dsimp only
  rw [hread, Checked.ok_bind, hmasked, hmask, Checked.ok_bind, hfin, hopcode]

theorem length_headerBytes_le : (headerBytes fin opcode masked maskKey len).length ≤ 14 := by
  have hkey : (keyBytes maskKey).length ≤ 4 := by
    cases maskKey with
    | none => exact Nat.zero_le _
    | some key => simp [keyBytes]
  have hlength : (lengthBytes masked len).length ≤ 9 := by
    unfold lengthBytes
    split_ifs <;> simp
  rw [headerBytes, List.length_cons, List.length_append]
  omega

/-- A frame that was written is read back with its payload still masked. -/
theorem parse_serialize (hmasked : f.masked = f.maskKey.isSome) (hlen : f.payload.length < 2 ^ 63) :
    parse f.serialize =
      .ok ⟨f.fin, f.opcode &&& 0x0F, f.masked, f.maskKey, applyMask f.maskKey f.payload⟩ := by
  have hheader := @readHeader_headerBytes (applyMask f.maskKey f.payload) f.maskKey f.fin f.opcode
    f.payload.length (by omega)
  have hle := @length_headerBytes_le f.maskKey f.masked f.fin f.opcode f.payload.length
  rw [← hmasked] at hheader
  rw [parse, WebSocketFrame.serialize, hheader, Checked.ok_bind, usizeAdd]
  dsimp only
  rw [if_pos (by omega), Checked.ok_bind, if_neg (by simp)]
  have hslice := @Checked.slice_middle WebSocketError _
    (headerBytes f.fin f.opcode f.masked f.maskKey f.payload.length)
      (applyMask f.maskKey f.payload) []
  rw [List.append_nil, length_applyMask] at hslice
  rw [hslice, Checked.ok_bind]

/-! ### Writing what was read -/

/-- Reserved bits zero and the shortest form of the length. -/
structure Canonical (data : List UInt8) : Prop where
  reserved : data.getD 0 0 &&& 0x70 = 0
  word : data.getD 1 0 &&& 0x7F = 126 → 126 ≤ BigEndian.value ((data.take 4).drop 2)
  long : data.getD 1 0 &&& 0x7F = 127 → 65536 ≤ BigEndian.value ((data.take 10).drop 2)

theorem keyBytes_of_readMaskKey {last : ℕ} (hi : i ≤ data.length)
    (h : readMaskKey data masked i = .ok (maskKey, last)) :
    masked = maskKey.isSome ∧ data.drop i = keyBytes maskKey ++ data.drop last ∧
      last = i + (keyBytes maskKey).length ∧ last ≤ data.length := by
  unfold readMaskKey at h
  cases masked with
  | false =>
    cases h
    exact ⟨rfl, rfl, rfl, hi⟩
  | true =>
    rw [if_pos rfl, Checked.ite_error_eq_ok] at h
    obtain ⟨hlen, h⟩ := h
    obtain ⟨a, ha, h⟩ := Checked.bind_eq_ok.mp h
    obtain ⟨b, hb, h⟩ := Checked.bind_eq_ok.mp h
    obtain ⟨c, hc, h⟩ := Checked.bind_eq_ok.mp h
    obtain ⟨d, hd, h⟩ := Checked.bind_eq_ok.mp h
    cases h
    obtain ⟨h₀, rfl⟩ := List.getElem?_eq_some_iff.mp (Checked.index_eq_ok.mp ha)
    obtain ⟨h₁, rfl⟩ := List.getElem?_eq_some_iff.mp (Checked.index_eq_ok.mp hb)
    obtain ⟨h₂, rfl⟩ := List.getElem?_eq_some_iff.mp (Checked.index_eq_ok.mp hc)
    obtain ⟨h₃, rfl⟩ := List.getElem?_eq_some_iff.mp (Checked.index_eq_ok.mp hd)
    refine ⟨rfl, ?_, rfl, by omega⟩
    rw [List.drop_eq_getElem_cons h₀, List.drop_eq_getElem_cons h₁, List.drop_eq_getElem_cons h₂,
      List.drop_eq_getElem_cons h₃]
    rfl

theorem maskBit_or (b : UInt8) :
    maskBit (decide (b &&& 0x80 ≠ 0)) ||| (b &&& 0x7F) = b :=
  forall_uint8 (P := fun b => maskBit (decide (b &&& 0x80 ≠ 0)) ||| (b &&& 0x7F) = b)
    (by decide +kernel) b

theorem bytes_of_slice {b₀ b₁ : UInt8} {bs : List UInt8} {k : ℕ}
    (h : (slice (b₀ :: b₁ :: rest) 2 (2 + k) : Checked WebSocketError _) = .ok bs) :
    rest = BigEndian.bytes k (BigEndian.value bs) ++ (b₀ :: b₁ :: rest).drop (2 + k) ∧
      BigEndian.value bs < 256 ^ k ∧ bs = ((b₀ :: b₁ :: rest).take (2 + k)).drop 2 ∧
      2 + k ≤ (b₀ :: b₁ :: rest).length := by
  obtain ⟨hlen, hle, hdrop⟩ := Checked.drop_of_slice h
  obtain rfl : k = bs.length := by omega
  rw [Checked.slice_eq_ok (by omega) hle] at h
  exact ⟨by rw [BigEndian.bytes_value]; exact hdrop, BigEndian.value_lt bs,
    (Checked.ok.inj h).symm, hle⟩

theorem lengthBytes_of_readLength {b₀ b₁ : UInt8} {last : ℕ} (hc : Canonical (b₀ :: b₁ :: rest))
    (h : readLength (b₀ :: b₁ :: rest) (b₁ &&& 0x7F).toNat = .ok (len, last)) :
    b₁ :: rest = lengthBytes (decide (b₁ &&& 0x80 ≠ 0)) len ++ (b₀ :: b₁ :: rest).drop last ∧
      last = 1 + (lengthBytes (decide (b₁ &&& 0x80 ≠ 0)) len).length ∧
      last ≤ (b₀ :: b₁ :: rest).length := by
  have hb₁ := maskBit_or b₁
  have hlow : (b₁ &&& 0x7F).toNat < 128 := by
    rw [toNat_and_127]
    omega
  unfold readLength at h
  by_cases hword : (b₁ &&& 0x7F).toNat = 126
  · rw [if_pos hword, Checked.ite_error_eq_ok] at h
    obtain ⟨bs, hbs, h⟩ := Checked.bind_eq_ok.mp h.2
    cases h
    obtain ⟨hrest, hlt, heq, hle⟩ := @bytes_of_slice _ _ _ bs 2 hbs
    have hmin := hc.word (UInt8.toNat_inj.mp hword)
    rw [← heq] at hmin
    rw [lengthBytes, if_neg (by omega), if_pos (by omega),
      ← (UInt8.toNat_inj.mp hword : b₁ &&& 0x7F = 126), hb₁]
    exact ⟨congrArg (b₁ :: ·) hrest, by simp, hle⟩
  by_cases hlong : (b₁ &&& 0x7F).toNat = 127
  · rw [if_neg hword, if_pos hlong, Checked.ite_error_eq_ok] at h
    obtain ⟨bs, hbs, h⟩ := Checked.bind_eq_ok.mp h.2
    cases h
    obtain ⟨hrest, hlt, heq, hle⟩ := @bytes_of_slice _ _ _ bs 8 hbs
    have hmin := hc.long (UInt8.toNat_inj.mp hlong)
    rw [← heq] at hmin
    rw [lengthBytes, if_neg (by omega), if_neg (by omega),
      ← (UInt8.toNat_inj.mp hlong : b₁ &&& 0x7F = 127), hb₁]
    exact ⟨congrArg (b₁ :: ·) hrest, by simp, hle⟩
  · rw [if_neg hword, if_neg hlong] at h
    cases h
    rw [lengthBytes, if_pos (by omega), UInt8.ofNat_toNat, hb₁]
    exact ⟨rfl, rfl, by simp⟩

theorem opcode_or {b : UInt8} (h : b &&& 0x70 = 0) :
    (if decide (b &&& 0x80 ≠ 0) then 0x80 else 0) ||| (b &&& 0x0F &&& 0x0F) = b :=
  forall_uint8 (P := fun b => b &&& 0x70 = 0 →
    (if decide (b &&& 0x80 ≠ 0) then 0x80 else 0) ||| (b &&& 0x0F &&& 0x0F) = b)
    (by decide +kernel) b h

theorem headerBytes_of_readHeader (hc : Canonical data) (hread : readHeader data = .ok h) :
    h.masked = h.maskKey.isSome ∧ h.offset ≤ data.length ∧
      data = headerBytes h.fin h.opcode h.masked h.maskKey h.payloadLen ++ data.drop h.offset ∧
      h.offset = (headerBytes h.fin h.opcode h.masked h.maskKey h.payloadLen).length := by
  rw [readHeader, Checked.ite_error_eq_ok] at hread
  obtain ⟨hlen, hread⟩ := hread
  match data, hlen with
  | b₀ :: b₁ :: rest, _ =>
    obtain ⟨c₀, h₀, hread⟩ := Checked.bind_eq_ok.mp hread
    cases h₀
    obtain ⟨c₁, h₁, hread⟩ := Checked.bind_eq_ok.mp hread
    cases h₁
    obtain ⟨⟨len, start⟩, hlength, hread⟩ := Checked.bind_eq_ok.mp hread
    obtain ⟨⟨maskKey, offset⟩, hkey, hread⟩ := Checked.bind_eq_ok.mp hread
    cases hread
    obtain ⟨hrest, hstart, hle⟩ := lengthBytes_of_readLength hc hlength
    obtain ⟨hmasked, hdrop, hoffset, hle'⟩ := keyBytes_of_readMaskKey hle hkey
    have hopcode := opcode_or hc.reserved
    dsimp only at hdrop hopcode hoffset ⊢
    refine ⟨hmasked, hle', ?_, ?_⟩
    · rw [headerBytes, List.cons_append, List.append_assoc, ← hdrop, ← hrest]
      exact congrArg (· :: _) hopcode.symm
    · rw [headerBytes, List.length_cons, List.length_append, hoffset, hstart]
      omega

theorem safe_readHeader (data : List UInt8) : Safe (readHeader data) := by
  unfold readHeader
  refine Checked.safe_ite (fun _ => Checked.safe_error _) fun hlen => ?_
  refine Safe.bind (Checked.safe_index (by omega)) fun b₀ _ => ?_
  refine Safe.bind (Checked.safe_index (by omega)) fun b₁ _ => ?_
  refine Safe.bind ?_ fun len _ => Safe.bind ?_ fun key _ => Checked.safe_ok _
  · unfold readLength
    refine Checked.safe_ite (fun _ => ?_) fun _ => Checked.safe_ite (fun _ => ?_) fun _ =>
      Checked.safe_ok _
    · refine Checked.safe_ite (fun _ => Checked.safe_error _) fun h => ?_
      exact Safe.bind (Checked.safe_slice (by omega) (by omega)) fun _ _ => Checked.safe_ok _
    · refine Checked.safe_ite (fun _ => Checked.safe_error _) fun h => ?_
      exact Safe.bind (Checked.safe_slice (by omega) (by omega)) fun _ _ => Checked.safe_ok _
  · unfold readMaskKey
    refine Checked.safe_ite (fun _ => ?_) fun _ => Checked.safe_ok _
    refine Checked.safe_ite (fun _ => Checked.safe_error _) fun h => ?_
    refine Safe.bind (Checked.safe_index (by omega)) fun a _ => ?_
    refine Safe.bind (Checked.safe_index (by omega)) fun b _ => ?_
    refine Safe.bind (Checked.safe_index (by omega)) fun c _ => ?_
    exact Safe.bind (Checked.safe_index (by omega)) fun d _ => Checked.safe_ok _

/-! ### Relaying -/

/-- No fault, and the frame that was read is written as the bytes it was read from. -/
def Relays (data : List UInt8) : Prop :=
  Safe (parse data) ∧ ∀ h f, readHeader data = .ok h → parse data = .ok f → Canonical data →
    f.serialize = data.take (h.offset + h.payloadLen)

/-- The length is no closer to `2 ^ 64` than the header is long, and in a complete frame of
canonical form the bytes of the key that are used are zero. -/
def Harmless (data : List UInt8) : Prop :=
  ∀ h, readHeader data = .ok h → h.offset + h.payloadLen < 2 ^ 64 ∧
    (h.offset + h.payloadLen ≤ data.length → Canonical data →
      ∀ key, h.maskKey = some key → ∀ i < h.payloadLen, key[i % 4] = 0)

theorem parse_of_readHeader (hread : readHeader data = .ok h)
    (hlt : h.offset + h.payloadLen < 2 ^ 64) :
    parse data =
      if data.length < h.offset + h.payloadLen then
        .error (.invalidLength h.payloadLen (data.length - h.offset))
      else .ok ⟨h.fin, h.opcode, h.masked, h.maskKey,
        (data.take (h.offset + h.payloadLen)).drop h.offset⟩ := by
  rw [parse, hread, Checked.ok_bind, usizeAdd, if_pos hlt, Checked.ok_bind]
  split_ifs with hshort
  · rfl
  · rw [Checked.slice_eq_ok (by omega) (by omega), Checked.ok_bind]

theorem applyMask_eq_self_iff : applyMask maskKey payload = payload ↔
    ∀ key, maskKey = some key → ∀ i < payload.length, key[i % 4] = 0 := by
  cases maskKey with
  | none => simp [applyMask]
  | some key =>
    rw [applyMask, xorMask_eq_self_iff]
    exact ⟨fun h k hk => by cases hk; exact h, fun h => h key rfl⟩

/-- The frame read from canonical bytes is written as these bytes exactly when masking its payload a
second time changes nothing. -/
theorem serialize_eq_iff (hread : readHeader data = .ok h)
    (hle : h.offset + h.payloadLen ≤ data.length) (hc : Canonical data)
    (hf : f = ⟨h.fin, h.opcode, h.masked, h.maskKey,
      (data.take (h.offset + h.payloadLen)).drop h.offset⟩) :
    f.serialize = data.take (h.offset + h.payloadLen) ↔
      ∀ key, h.maskKey = some key → ∀ i < h.payloadLen, key[i % 4] = 0 := by
  obtain ⟨-, -, hdata, hoffset⟩ := headerBytes_of_readHeader hc hread
  have hlen : ((data.take (h.offset + h.payloadLen)).drop h.offset).length = h.payloadLen := by
    rw [List.length_drop, List.length_take]
    omega
  have hprefix : data.take h.offset =
      headerBytes h.fin h.opcode h.masked h.maskKey h.payloadLen := by
    rw [hdata, hoffset, List.take_left]
  have htake := List.take_append_drop h.offset (data.take (h.offset + h.payloadLen))
  rw [List.take_take, min_eq_left (Nat.le_add_right _ _), hprefix] at htake
  generalize (data.take (h.offset + h.payloadLen)).drop h.offset = payload at *
  rw [hf, WebSocketFrame.serialize, ← htake]
  dsimp only
  rw [hlen, List.append_cancel_left_eq, applyMask_eq_self_iff, hlen]

/-- Frames written with consistent masking are read back with their payload, but bytes are relayed
only where masking them twice does no harm and the length does not overflow. -/
theorem frames_iff (f : WebSocketFrame) (data : List UInt8) :
    ((f.masked = f.maskKey.isSome → f.payload.length < 2 ^ 63 →
      ∃ g, parse f.serialize = .ok g ∧ g.unmaskedPayload = f.payload) ∧
      Relays data) ↔ Harmless data := by
  constructor
  · rintro ⟨-, hsafe, hrelay⟩ h hread
    have hlt : h.offset + h.payloadLen < 2 ^ 64 := by
      by_contra hge
      apply hsafe
      rw [parse, hread, Checked.ok_bind, usizeAdd, if_neg hge]
      rfl
    refine ⟨hlt, fun hle hc => ?_⟩
    have hparse := parse_of_readHeader hread hlt
    rw [if_neg (not_lt.mpr hle)] at hparse
    exact (serialize_eq_iff hread hle hc rfl).mp (hrelay h _ hread hparse hc)
  · intro hharmless
    refine ⟨fun hmasked hlen => ⟨_, parse_serialize hmasked hlen, applyMask_applyMask⟩, ?_, ?_⟩
    · cases hread : readHeader data with
      | panic => exact absurd hread (safe_readHeader data)
      | error e =>
        rw [parse, hread]
        exact Checked.safe_error e
      | ok h =>
        rw [parse_of_readHeader hread (hharmless h hread).1]
        exact Checked.safe_ite (fun _ => Checked.safe_error _) fun _ => Checked.safe_ok _
    · intro h f hread hparse hc
      obtain ⟨hlt, hzero⟩ := hharmless h hread
      rw [parse_of_readHeader hread hlt, Checked.ite_error_eq_ok] at hparse
      have hle := not_lt.mp hparse.1
      exact (serialize_eq_iff hread hle hc (Checked.ok.inj hparse.2).symm).mpr (hzero hle hc)

/-- One masked byte: it is masked a second time. -/
theorem relays_masked : ¬ ∀ data, Relays data := by
  intro h
  have hrelay := (h [0x82, 0x81, 1, 0, 0, 0, 0x55]).2 ⟨true, 2, true, some #v[1, 0, 0, 0], 1, 6⟩
    ⟨true, 2, true, some #v[1, 0, 0, 0], [0x55]⟩ (by decide) (by decide)
    ⟨by decide, by decide, by decide⟩
  revert hrelay
  decide

end ToyTcpip.WebSocket
