import ToyTcpip.Bytes
import ToyTcpip.Lib.Checked

/-! CoAP messages of `coap.rs`, written and read back. -/
namespace ToyTcpip.Coap

open Checked (index slice Safe)

def coapHeaderLen : ℕ := 4

def coapPayloadMarker : UInt8 := 0xFF

structure CoapOption where
  number : UInt16
  value : List UInt8
  deriving DecidableEq

structure CoapPacket where
  version : UInt8
  msgType : UInt8
  code : UInt8
  messageId : UInt16
  token : List UInt8
  options : List CoapOption
  payload : List UInt8
  deriving DecidableEq

inductive CoapError where
  | packetTooShort (len : ℕ)
  | invalidVersion (version : UInt8)
  | invalidTokenLength (tkl : UInt8)
  | emptyPayloadMarker
  | optionNumberOverflow
  | invalidOptionEncoding
  deriving DecidableEq

def encodeNibble (val : ℕ) : UInt8 × Option UInt8 :=
  if val < 13 then (.ofNat val, none)
  else if val < 269 then (13, some (.ofNat (val - 13)))
  else (14, some 255)

def decodeNibble (nibble : UInt8) (data : List UInt8) (offset : ℕ) : Checked CoapError (ℕ × ℕ) :=
  if nibble ≤ 12 then .ok (nibble.toNat, offset)
  else if nibble = 13 then
    if data.length ≤ offset then .error .invalidOptionEncoding
    else (index data offset).bind fun b => .ok (b.toNat + 13, offset + 1)
  else if nibble = 14 then
    if data.length ≤ offset + 1 then .error .invalidOptionEncoding
    else (index data offset).bind fun hi => (index data (offset + 1)).bind fun lo =>
      .ok (beWord hi lo + 269, offset + 2)
  else .error .invalidOptionEncoding

theorem le_of_decodeNibble {nibble : UInt8} {data : List UInt8} {offset v offset' : ℕ}
    (h : decodeNibble nibble data offset = .ok (v, offset')) : offset ≤ offset' := by
  unfold decodeNibble at h
  split at h
  · obtain ⟨-, rfl⟩ := Prod.mk.inj (Checked.ok.inj h)
    exact le_rfl
  · split at h
    · rw [Checked.ite_error_eq_ok, Checked.bind_eq_ok] at h
      obtain ⟨-, b, -, h⟩ := h
      obtain ⟨-, rfl⟩ := Prod.mk.inj (Checked.ok.inj h)
      omega
    · split at h
      · rw [Checked.ite_error_eq_ok, Checked.bind_eq_ok] at h
        obtain ⟨-, hi, -, h⟩ := h
        rw [Checked.bind_eq_ok] at h
        obtain ⟨lo, -, h⟩ := h
        obtain ⟨-, rfl⟩ := Prod.mk.inj (Checked.ok.inj h)
        omega
      · cases h

/-- The loop over the options, from a position on; it ends where the payload starts. -/
def optionsFrom (data : List UInt8) (offset : ℕ) (currentOptNum : UInt16) :
    Checked CoapError (List CoapOption × ℕ) :=
  if offset < data.length then
    (index data offset).bind fun optHeader =>
      if optHeader = coapPayloadMarker then
        if data.length ≤ offset + 1 then .error .emptyPayloadMarker else .ok ([], offset + 1)
      else
        match _hdelta : decodeNibble (optHeader >>> 4) data (offset + 1) with
        | .panic => .panic
        | .error e => .error e
        | .ok (delta, offset₁) =>
          match _hlen : decodeNibble (optHeader &&& 0x0F) data offset₁ with
          | .panic => .panic
          | .error e => .error e
          | .ok (len, offset₂) =>
            if data.length < offset₂ + len then .error .invalidOptionEncoding
            else if 65535 < delta then .error .optionNumberOverflow
            else if 65535 < currentOptNum.toNat + delta then .error .optionNumberOverflow
            else
              let number := UInt16.ofNat (currentOptNum.toNat + delta)
              (slice data offset₂ (offset₂ + len)).bind fun value =>
              (optionsFrom data (offset₂ + len) number).bind fun rest =>
                .ok (⟨number, value⟩ :: rest.1, rest.2)
  else .ok ([], offset)
termination_by data.length - offset
decreasing_by
  have := le_of_decodeNibble _hdelta
  have := le_of_decodeNibble _hlen
  omega

/-- One round of the loop. -/
theorem optionsFrom_eq (data : List UInt8) (offset : ℕ) (currentOptNum : UInt16) :
    optionsFrom data offset currentOptNum =
      if offset < data.length then
        (index data offset).bind fun optHeader =>
          if optHeader = coapPayloadMarker then
            if data.length ≤ offset + 1 then .error .emptyPayloadMarker else .ok ([], offset + 1)
          else
            (decodeNibble (optHeader >>> 4) data (offset + 1)).bind fun (delta, offset₁) =>
            (decodeNibble (optHeader &&& 0x0F) data offset₁).bind fun (len, offset₂) =>
              if data.length < offset₂ + len then .error .invalidOptionEncoding
              else if 65535 < delta then .error .optionNumberOverflow
              else if 65535 < currentOptNum.toNat + delta then .error .optionNumberOverflow
              else
                (slice data offset₂ (offset₂ + len)).bind fun value =>
                (optionsFrom data (offset₂ + len) (.ofNat (currentOptNum.toNat + delta))).bind
                  fun rest =>
                  .ok (⟨.ofNat (currentOptNum.toNat + delta), value⟩ :: rest.1, rest.2)
      else .ok ([], offset) := by
  rw [optionsFrom]
  congr 2
  funext optHeader
  congr 1
  split
  · rename_i h
    rw [h]
    rfl
  · rename_i h
    rw [h]
    rfl
  · rename_i delta offset₁ h
    rw [h, Checked.ok_bind]
    dsimp only
    split
    · rename_i h'
      rw [h']
      rfl
    · rename_i h'
      rw [h']
      rfl
    · rename_i h'
      rw [h']
      rfl

/-- The option bytes, each option after the number of the one before. -/
def serializeOptions : UInt16 → List CoapOption → List UInt8
  | _, [] => []
  | lastOptNum, opt :: rest =>
    let d := encodeNibble (opt.number.toNat - lastOptNum.toNat)
    let l := encodeNibble opt.value.length
    [(d.1 <<< 4) ||| l.1] ++ d.2.toList ++ l.2.toList ++ opt.value ++
      serializeOptions opt.number rest

namespace CoapPacket

def header (p : CoapPacket) : List UInt8 :=
  [(p.version <<< 6) ||| ((p.msgType &&& 0x03) <<< 4) |||
    .ofNat (p.token.length &&& 0x0F), p.code] ++
    toBeBytes16 p.messageId.toNat ++ p.token

def payloadBytes (payload : List UInt8) : List UInt8 :=
  if payload.isEmpty then [] else coapPayloadMarker :: payload

def serialize (p : CoapPacket) : List UInt8 :=
  p.header ++ serializeOptions 0 p.options ++ payloadBytes p.payload

def parse (data : List UInt8) : Checked CoapError CoapPacket :=
  if data.length < coapHeaderLen then .error (.packetTooShort data.length)
  else (index data 0).bind fun b0 =>
    let version := b0 >>> 6
    if version ≠ 1 then .error (.invalidVersion version)
    else
      let tkl := (b0 &&& 0x0F).toNat
      if 8 < tkl then .error (.invalidTokenLength (.ofNat tkl))
      else (index data 1).bind fun code => (index data 2).bind fun hi =>
        (index data 3).bind fun lo =>
        if data.length < coapHeaderLen + tkl then .error (.packetTooShort data.length)
        else (slice data coapHeaderLen (coapHeaderLen + tkl)).bind fun token =>
          (optionsFrom data (coapHeaderLen + tkl) 0).bind fun (options, offset) =>
            (if offset ≤ data.length then slice data offset data.length else
                .ok []).bind fun payload =>
              .ok ⟨version, (b0 >>> 4) &&& 0x03, code, .ofNat (beWord hi lo), token,
                options, payload⟩

end CoapPacket

/-! ### Bounds -/

section safety

variable {data : List UInt8} {nibble : UInt8} {offset : ℕ}

theorem safe_decodeNibble (nibble : UInt8) (data : List UInt8) (offset : ℕ) :
    Safe (decodeNibble nibble data offset) := by
  unfold decodeNibble
  refine Checked.safe_ite (fun _ => Checked.safe_ok _) fun _ => ?_
  refine Checked.safe_ite (fun _ => ?_) fun _ => ?_
  · refine Checked.safe_ite (fun _ => Checked.safe_error _) fun hlong => ?_
    exact Safe.bind (Checked.safe_index (by omega)) fun b _ => Checked.safe_ok _
  · refine Checked.safe_ite (fun _ => ?_) fun _ => Checked.safe_error _
    refine Checked.safe_ite (fun _ => Checked.safe_error _) fun hlong => ?_
    refine Safe.bind (Checked.safe_index (by omega)) fun hi _ => ?_
    exact Safe.bind (Checked.safe_index (by omega)) fun lo _ => Checked.safe_ok _

theorem safe_optionsFrom (data : List UInt8) (offset : ℕ) (number : UInt16) :
    Safe (optionsFrom data offset number) := by
  induction hn : data.length - offset using Nat.strong_induction_on generalizing offset number with
  | _ n ih =>
    rw [optionsFrom_eq]
    refine Checked.safe_ite (fun hlt => ?_) fun _ => Checked.safe_ok _
    refine Safe.bind (Checked.safe_index hlt) fun optHeader _ => ?_
    refine Checked.safe_ite (fun _ => ?_) fun _ => ?_
    · exact Checked.safe_ite (fun _ => Checked.safe_error _) fun _ => Checked.safe_ok _
    · refine Safe.bind (safe_decodeNibble _ data _) fun (delta, offset₁) hdelta => ?_
      refine Safe.bind (safe_decodeNibble _ data _) fun (len, offset₂) hlen => ?_
      have := le_of_decodeNibble hdelta
      have := le_of_decodeNibble hlen
      refine Checked.safe_ite (fun _ => Checked.safe_error _) fun hfits => ?_
      refine Checked.safe_ite (fun _ => Checked.safe_error _) fun _ => ?_
      refine Checked.safe_ite (fun _ => Checked.safe_error _) fun _ => ?_
      refine Safe.bind (Checked.safe_slice (by omega) (by omega)) fun value _ => ?_
      exact Safe.bind (ih _ (by omega) _ _ rfl) fun rest _ => Checked.safe_ok _

theorem CoapPacket.safe_parse (data : List UInt8) : Safe (CoapPacket.parse data) := by
  unfold CoapPacket.parse
  refine Checked.safe_ite (fun _ => Checked.safe_error _) fun hlen => ?_
  rw [coapHeaderLen] at hlen
  refine Safe.bind (Checked.safe_index (by omega)) fun b0 _ => ?_
  refine Checked.safe_ite (fun _ => Checked.safe_error _) fun _ => ?_
  refine Checked.safe_ite (fun _ => Checked.safe_error _) fun _ => ?_
  refine Safe.bind (Checked.safe_index (by omega)) fun code _ => ?_
  refine Safe.bind (Checked.safe_index (by omega)) fun hi _ => ?_
  refine Safe.bind (Checked.safe_index (by omega)) fun lo _ => ?_
  refine Checked.safe_ite (fun _ => Checked.safe_error _) fun hlong => ?_
  refine Safe.bind (Checked.safe_slice (by omega) (by omega)) fun token _ => ?_
  refine Safe.bind (safe_optionsFrom data _ 0) fun (options, offset) _ => ?_
  refine Safe.bind ?_ fun payload _ => Checked.safe_ok _
  exact Checked.safe_ite (fun hle => Checked.safe_slice hle le_rfl) fun _ => Checked.safe_ok _

end safety

/-! ### What the decoder reads -/

/-- The nibble from which the decoder reads a number. -/
def nibbleOf (v : ℕ) : UInt8 := if v < 13 then .ofNat v else if v < 269 then 13 else 14

/-- The bytes after the option header from which the decoder reads it. -/
def extensionOf (v : ℕ) : List UInt8 :=
  if v < 13 then [] else if v < 269 then [.ofNat (v - 13)] else toBeBytes16 (v - 269)

section nibbles

variable {data : List UInt8} {nibble : UInt8} {offset offset' v : ℕ} {b : UInt8}

theorem drop_of_index (h : (index data offset : Checked CoapError UInt8) = .ok b) :
    data.drop offset = b :: data.drop (offset + 1) := by
  obtain ⟨hlt, hget⟩ := List.getElem?_eq_some_iff.mp (Checked.index_eq_ok.mp h)
  rw [List.drop_eq_getElem_cons hlt, hget]

theorem nibbleOf_lt (v : ℕ) : nibbleOf v < 15 := by
  unfold nibbleOf
  split_ifs with hshort
  · rw [UInt8.lt_iff_toNat_lt, UInt8.toNat_ofNat', Nat.mod_eq_of_lt (by omega)]
    change v < 15
    omega
  · decide
  · decide

theorem decodeNibble_sound (h : decodeNibble nibble data offset = .ok (v, offset')) :
    nibble = nibbleOf v ∧ v ≤ 65804 ∧ data.drop offset = extensionOf v ++ data.drop offset' ∧
      offset' = offset + (extensionOf v).length := by
  unfold decodeNibble at h
  split at h
  · rename_i hle
    obtain ⟨rfl, rfl⟩ := Prod.mk.inj (Checked.ok.inj h)
    have hlt : nibble.toNat < 13 := Nat.lt_succ_of_le (UInt8.le_iff_toNat_le.mp hle)
    simp only [nibbleOf, extensionOf, if_pos hlt]
    exact ⟨by simp, by omega, rfl, rfl⟩
  · split at h
    · rename_i hnibble
      rw [Checked.ite_error_eq_ok, Checked.bind_eq_ok] at h
      obtain ⟨-, b, hb, h⟩ := h
      obtain ⟨rfl, rfl⟩ := Prod.mk.inj (Checked.ok.inj h)
      have hlt := b.toNat_lt
      simp only [nibbleOf, extensionOf, if_neg (show ¬ b.toNat + 13 < 13 by omega),
        if_pos (show b.toNat + 13 < 269 by omega), drop_of_index hb]
      exact ⟨hnibble, by omega, by simp, rfl⟩
    · split at h
      · rename_i hnibble
        rw [Checked.ite_error_eq_ok, Checked.bind_eq_ok] at h
        obtain ⟨-, hi, hhi, h⟩ := h
        rw [Checked.bind_eq_ok] at h
        obtain ⟨lo, hlo, h⟩ := h
        obtain ⟨rfl, rfl⟩ := Prod.mk.inj (Checked.ok.inj h)
        have hlt := beWord_lt hi lo
        simp only [nibbleOf, extensionOf, if_neg (show ¬ beWord hi lo + 269 < 13 by omega),
          if_neg (show ¬ beWord hi lo + 269 < 269 by omega), drop_of_index hhi, drop_of_index hlo,
          Nat.add_sub_cancel, toBeBytes16_of_beWord]
        exact ⟨hnibble, by omega, rfl, rfl⟩
      · cases h

theorem decodeNibble_complete {rest : List UInt8} (hv : v ≤ 65804)
    (h : data.drop offset = extensionOf v ++ rest) :
    decodeNibble (nibbleOf v) data offset = .ok (v, offset + (extensionOf v).length) := by
  have hlen := congrArg List.length h
  rw [List.length_drop, List.length_append] at hlen
  unfold decodeNibble nibbleOf
  unfold extensionOf at *
  by_cases hshort : v < 13
  · have hnat : (UInt8.ofNat v).toNat = v := by
      rw [UInt8.toNat_ofNat', Nat.mod_eq_of_lt (by omega)]
    have hle : UInt8.ofNat v ≤ 12 := by
      rw [UInt8.le_iff_toNat_le, hnat]
      exact Nat.le_of_lt_succ hshort
    simp [hshort, hle, hnat]
  · by_cases hmid : v < 269
    · simp only [hshort, hmid, if_true, if_false] at h hlen ⊢
      rw [if_neg (by decide), if_neg (by simp at hlen; omega),
        Checked.bind_of_eq_ok _ (Checked.index_of_drop h), UInt8.toNat_ofNat',
        Nat.mod_eq_of_lt (by omega)]
      simp
      omega
    · simp only [hshort, hmid, if_false] at h hlen ⊢
      simp only [toBeBytes16, List.cons_append, List.nil_append, List.length_cons,
        List.length_nil] at h hlen
      rw [if_neg (by decide), if_neg (by decide), if_pos trivial, if_neg (by omega),
        Checked.bind_of_eq_ok _ (Checked.index_of_drop h),
        Checked.bind_of_eq_ok _ (Checked.index_of_drop (Checked.drop_succ_of_drop h)),
        beWord_toBeBytes16 (by omega)]
      simp [toBeBytes16]
      omega

/-- The two nibbles of an option header, and that it is not the payload marker. -/
theorem header_nibbles {d l : UInt8} (hd : d < 15) (hl : l < 15) :
    ((d <<< 4) ||| l) >>> 4 = d ∧ ((d <<< 4) ||| l) &&& 0x0F = l ∧
    (d <<< 4) ||| l ≠ coapPayloadMarker := by
  have hall : ∀ m < 15, ∀ n < 15, ((UInt8.ofNat m <<< 4) ||| UInt8.ofNat n) >>> 4 = UInt8.ofNat m ∧
      ((UInt8.ofNat m <<< 4) ||| UInt8.ofNat n) &&& 0x0F = UInt8.ofNat n ∧
      (UInt8.ofNat m <<< 4) ||| UInt8.ofNat n ≠ coapPayloadMarker := by
    decide +kernel
  simpa using hall d.toNat (UInt8.lt_iff_toNat_lt.mp hd) l.toNat (UInt8.lt_iff_toNat_lt.mp hl)

theorem nibbles_join (b : UInt8) : ((b >>> 4) <<< 4) ||| (b &&& 0x0F) = b := by
  have hall : ∀ n < 256, ((UInt8.ofNat n >>> 4) <<< 4) |||
      (UInt8.ofNat n &&& 0x0F) = UInt8.ofNat n := by
    decide +kernel
  simpa using hall b.toNat b.toNat_lt

end nibbles

/-- The option bytes that the decoder reads. -/
def codedOptions : ℕ → List CoapOption → List UInt8
  | _, [] => []
  | last, opt :: rest =>
    let d := opt.number.toNat - last
    let l := opt.value.length
    ((nibbleOf d <<< 4) ||| nibbleOf l) :: (extensionOf d ++ extensionOf l ++ opt.value ++
      codedOptions opt.number.toNat rest)

/-- Options by number, from a number on, with values of a length that can be coded. -/
def Ordered : ℕ → List CoapOption → Prop
  | _, [] => True
  | last, opt :: rest => last ≤ opt.number.toNat ∧ opt.value.length ≤ 65804 ∧
    Ordered opt.number.toNat rest

section options

open CoapPacket (payloadBytes)

variable {data : List UInt8} {offset offset' : ℕ} {number : UInt16} {options : List CoapOption}

theorem toNat_ofNat_of_le {n : ℕ} (h : ¬ 65535 < n) : (UInt16.ofNat n).toNat = n := by
  rw [UInt16.toNat_ofNat', Nat.mod_eq_of_lt (by omega)]

theorem optionsFrom_sound (hoffset : offset ≤ data.length)
    (h : optionsFrom data offset number = .ok (options, offset')) :
    offset' ≤ data.length ∧ Ordered number.toNat options ∧
      data.drop offset = codedOptions number.toNat options ++ payloadBytes (data.drop offset') := by
  induction hn : data.length - offset using Nat.strong_induction_on generalizing offset
    number options with
  | _ n ih =>
    rw [optionsFrom_eq] at h
    split at h
    · rename_i hlt
      rw [Checked.bind_eq_ok] at h
      obtain ⟨optHeader, hheader, h⟩ := h
      have hdrop := drop_of_index hheader
      split at h
      · rename_i hmarker
        rw [Checked.ite_error_eq_ok] at h
        obtain ⟨hmore, h⟩ := h
        obtain ⟨rfl, rfl⟩ := Prod.mk.inj (Checked.ok.inj h)
        have hne : data.drop (offset + 1) ≠ [] := by
          rw [Ne, List.drop_eq_nil_iff]
          omega
        refine ⟨by omega, trivial, ?_⟩
        rw [hdrop, hmarker, codedOptions, payloadBytes, if_neg (by simpa using hne)]
        rfl
      · rw [Checked.bind_eq_ok] at h
        obtain ⟨⟨delta, offset₁⟩, hdelta, h⟩ := h
        rw [Checked.bind_eq_ok] at h
        obtain ⟨⟨len, offset₂⟩, hlen, h⟩ := h
        rw [Checked.ite_error_eq_ok, Checked.ite_error_eq_ok, Checked.ite_error_eq_ok,
          Checked.bind_eq_ok] at h
        obtain ⟨hfits, -, hsum, value, hvalue, h⟩ := h
        rw [Checked.bind_eq_ok] at h
        obtain ⟨⟨rest, offset₃⟩, hrest, h⟩ := h
        obtain ⟨rfl, rfl⟩ := Prod.mk.inj (Checked.ok.inj h)
        obtain ⟨hdn, -, hdext, hoffset₁⟩ := decodeNibble_sound hdelta
        obtain ⟨hln, hlmax, hlext, hoffset₂⟩ := decodeNibble_sound hlen
        obtain ⟨hvlen, -, hvdrop⟩ := Checked.drop_of_slice hvalue
        obtain ⟨hle, hordered, hcoded⟩ := ih _ (by omega) (by omega) hrest rfl
        rw [toNat_ofNat_of_le hsum] at hordered hcoded
        have hvalueLen : value.length = len := by omega
        refine ⟨hle, ⟨?_, hvalueLen.le.trans hlmax, ?_⟩, ?_⟩
        · dsimp only
          rw [toNat_ofNat_of_le hsum]
          omega
        · dsimp only
          rwa [toNat_ofNat_of_le hsum]
        · simp only [codedOptions, toNat_ofNat_of_le hsum, Nat.add_sub_cancel_left,
            hvalueLen, ← hdn, ← hln, nibbles_join]
          rw [hdrop, hdext, hlext, hvdrop, hcoded]
          simp
    · obtain ⟨rfl, rfl⟩ := Prod.mk.inj (Checked.ok.inj h)
      have hnil : data.drop offset = [] := List.drop_eq_nil_of_le (by omega)
      refine ⟨hoffset, trivial, ?_⟩
      rw [hnil]
      rfl

theorem optionsFrom_complete {payload : List UInt8} (hordered : Ordered number.toNat options)
    (hoffset : offset ≤ data.length)
    (h : data.drop offset = codedOptions number.toNat options ++ payloadBytes payload) :
    optionsFrom data offset number = .ok (options, data.length - payload.length) := by
  induction options generalizing offset number with
  | nil =>
    rw [codedOptions, List.nil_append, payloadBytes] at h
    cases payload with
    | nil =>
      have hend : data.length ≤ offset := List.drop_eq_nil_iff.mp h
      rw [optionsFrom_eq, if_neg (by omega), le_antisymm hoffset hend]
      rfl
    | cons b payload =>
      have hlen := congrArg List.length h
      simp only [List.isEmpty_cons, Bool.false_eq_true, if_false, List.length_drop,
        List.length_cons] at h hlen
      rw [optionsFrom_eq, if_pos (by omega), Checked.bind_of_eq_ok _
        (Checked.index_of_drop h), if_pos rfl, if_neg (by omega), List.length_cons]
      congr 2
      omega
  | cons opt rest ih =>
    obtain ⟨hle, hvalue, hrest⟩ := hordered
    rw [codedOptions, List.cons_append] at h
    have hlen := congrArg List.length h
    simp only [List.length_drop, List.length_cons, List.length_append] at hlen
    obtain ⟨hhigh, hlow, hmarker⟩ := header_nibbles (nibbleOf_lt (opt.number.toNat - number.toNat))
      (nibbleOf_lt opt.value.length)
    have hd : data.drop (offset + 1) = extensionOf (opt.number.toNat - number.toNat) ++
        (extensionOf opt.value.length ++ (opt.value ++ (codedOptions opt.number.toNat rest ++
          payloadBytes payload))) := by
      simpa using Checked.drop_succ_of_drop h
    have hl := drop_add_length hd
    have hv := drop_add_length hl
    have hnumber := opt.number.toNat_lt
    have hdelta := decodeNibble_complete (by omega) hd
    have hlength := decodeNibble_complete hvalue hl
    rw [optionsFrom_eq, if_pos (by omega), Checked.bind_of_eq_ok _ (Checked.index_of_drop h),
      if_neg hmarker]
    rw [hhigh, hlow, Checked.bind_of_eq_ok _ hdelta]
    dsimp only
    rw [Checked.bind_of_eq_ok _ hlength]
    dsimp only
    have hback : UInt16.ofNat (number.toNat + (opt.number.toNat - number.toNat)) = opt.number := by
      rw [Nat.add_sub_cancel' hle, UInt16.ofNat_toNat]
    rw [if_neg (by omega), if_neg (by omega), if_neg (by omega),
      Checked.bind_of_eq_ok _ (Checked.slice_of_drop (by omega) hv), hback,
      Checked.bind_of_eq_ok _ (ih hrest (by omega) (drop_add_length hv))]

end options

/-! ### Round trips -/

namespace CoapPacket

variable {data : List UInt8} {p : CoapPacket}

/-- The bytes that the parser reads a packet from. -/
def coded (p : CoapPacket) : List UInt8 :=
  p.header ++ codedOptions 0 p.options ++ payloadBytes p.payload

/-- What the parser can return. -/
structure Wire (p : CoapPacket) : Prop where
  version : p.version = 1
  msgType : p.msgType ≤ 3
  token : p.token.length ≤ 8
  options : Ordered 0 p.options

theorem first_byte {t n : ℕ} (ht : t < 4) (hn : n < 16) :
    let b := ((1 : UInt8) <<< 6) ||| ((UInt8.ofNat t &&& 0x03) <<< 4) ||| UInt8.ofNat (n &&& 0x0F)
    b >>> 6 = 1 ∧ (b >>> 4) &&& 0x03 = UInt8.ofNat t ∧ (b &&& 0x0F).toNat = n := by
  have hall : ∀ t < 4, ∀ n < 16,
      let b := ((1 : UInt8) <<< 6) ||| ((UInt8.ofNat t &&& 0x03) <<< 4) ||| UInt8.ofNat (n &&& 0x0F)
      b >>> 6 = 1 ∧ (b >>> 4) &&& 0x03 = UInt8.ofNat t ∧ (b &&& 0x0F).toNat = n := by decide +kernel
  exact hall t ht n hn

theorem first_byte_join (b : UInt8) (h : b >>> 6 = 1) :
    ((b >>> 6) <<< 6) ||| ((((b >>> 4) &&& 0x03) &&& 0x03) <<< 4) |||
      UInt8.ofNat ((b &&& 0x0F).toNat &&& 0x0F) = b ∧ (b >>> 4) &&& 0x03 ≤ 3 := by
  have hall : ∀ n < 256, UInt8.ofNat n >>> 6 = 1 →
      ((UInt8.ofNat n >>> 6) <<< 6) ||| ((((UInt8.ofNat n >>> 4) &&& 0x03) &&& 0x03) <<< 4) |||
        UInt8.ofNat ((UInt8.ofNat n &&& 0x0F).toNat &&& 0x0F) = UInt8.ofNat n ∧
      (UInt8.ofNat n >>> 4) &&& 0x03 ≤ 3 := by decide +kernel
  simpa using hall b.toNat b.toNat_lt (by simpa using h)

theorem parse_sound (h : parse data = .ok p) : data = p.coded ∧ p.Wire := by
  unfold parse at h
  rw [Checked.ite_error_eq_ok, Checked.bind_eq_ok] at h
  obtain ⟨hlen, b0, hb0, h⟩ := h
  rw [Checked.ite_error_eq_ok, Checked.ite_error_eq_ok, Checked.bind_eq_ok] at h
  obtain ⟨hversion, htkl, code, hcode, h⟩ := h
  rw [Checked.bind_eq_ok] at h
  obtain ⟨hi, hhi, h⟩ := h
  rw [Checked.bind_eq_ok] at h
  obtain ⟨lo, hlo, h⟩ := h
  rw [Checked.ite_error_eq_ok, Checked.bind_eq_ok] at h
  obtain ⟨hlong, token, htoken, h⟩ := h
  rw [Checked.bind_eq_ok] at h
  obtain ⟨⟨options, offset⟩, hoptions, h⟩ := h
  rw [Checked.bind_eq_ok] at h
  obtain ⟨payload, hpayload, h⟩ := h
  obtain rfl := Checked.ok.inj h
  rw [coapHeaderLen] at *
  obtain ⟨hle, hordered, hcoded⟩ := optionsFrom_sound (by omega) hoptions
  rw [if_pos hle] at hpayload
  obtain ⟨-, -, hdrop⟩ := Checked.drop_of_slice hpayload
  obtain ⟨htlen, -, htdrop⟩ := Checked.drop_of_slice htoken
  rw [List.drop_length, List.append_nil] at hdrop
  have hv : b0 >>> 6 = 1 := not_not.mp hversion
  obtain ⟨hjoin, htype⟩ := first_byte_join b0 hv
  have htokenLen : token.length = (b0 &&& 0x0F).toNat := by omega
  have hbytes : toBeBytes16 (UInt16.ofNat (beWord hi lo)).toNat = [hi, lo] := by
    rw [UInt16.toNat_ofNat', Nat.mod_eq_of_lt (beWord_lt hi lo)]
    exact toBeBytes16_of_beWord hi lo
  refine ⟨?_, hv, htype, htokenLen.le.trans (not_lt.mp htkl), hordered⟩
  have hall : data = b0 :: code :: hi :: lo :: data.drop 4 := by
    have := drop_of_index hb0
    rwa [drop_of_index hcode, drop_of_index hhi, drop_of_index hlo, List.drop_zero] at this
  rw [hall, htdrop, hcoded, hdrop]
  simp only [coded, header, htokenLen, hjoin, hbytes]
  simp

theorem parse_complete (h : p.Wire) : parse p.coded = .ok p := by
  obtain ⟨version, msgType, code, messageId, token, options, payload⟩ := p
  obtain ⟨hversion, htype, htoken, hordered⟩ := h
  dsimp only at *
  subst hversion
  have htype' : msgType.toNat < 4 := Nat.lt_succ_of_le (UInt8.le_iff_toNat_le.mp htype)
  obtain ⟨hv, ht, htkl⟩ := first_byte htype' (show token.length < 16 by omega)
  rw [UInt8.ofNat_toNat] at hv ht htkl
  generalize hb0 : ((1 : UInt8) <<< 6) ||| ((msgType &&& 0x03) <<< 4) |||
    UInt8.ofNat (token.length &&& 0x0F) = b0 at hv ht htkl
  obtain ⟨hi, lo, hbytes, hword⟩ : ∃ hi lo, toBeBytes16 messageId.toNat = [hi, lo] ∧
      beWord hi lo = messageId.toNat := ⟨_, _, rfl, beWord_toBeBytes16 messageId.toNat_lt⟩
  have hcoded : coded ⟨1, msgType, code, messageId, token, options, payload⟩ = [b0, code, hi, lo] ++
      (token ++ (codedOptions 0 options ++ payloadBytes payload)) := by
    simp only [coded, header, hb0, hbytes]
    simp
  generalize coded ⟨1, msgType, code, messageId, token, options, payload⟩ = data at hcoded
  have hdrop : data.drop 4 = token ++ (codedOptions 0 options ++ payloadBytes payload) := by
    rw [hcoded]
    rfl
  have hlen : data.length = 4 + token.length + (codedOptions 0 options ++
      payloadBytes payload).length := by
    rw [hcoded]
    simp
    omega
  have hoptions := @optionsFrom_complete data
    (4 + token.length) 0 options payload hordered (by omega)
    (drop_add_length hdrop)
  obtain ⟨front, hfront⟩ : ∃ front, data = front ++ payload := by
    refine ⟨[b0, code, hi, lo] ++ token ++ codedOptions 0 options ++
      if payload.isEmpty then [] else [coapPayloadMarker], ?_⟩
    rw [hcoded, payloadBytes]
    cases payload <;> simp
  have hstart : data.length - payload.length = front.length := by
    rw [hfront, List.length_append, Nat.add_sub_cancel]
  have hend : data.length = front.length + payload.length := by rw [hfront, List.length_append]
  have hpayload : (slice data front.length data.length : Checked CoapError (List UInt8)) =
      .ok payload := by
    have hback : data.drop front.length = payload ++ [] := by
      rw [hfront, List.drop_left, List.append_nil]
    rw [hend]
    exact Checked.slice_of_drop (by omega) hback
  have hb : ∀ (i : ℕ) (b : UInt8), [b0, code, hi, lo][i]? = some b →
      (index data i : Checked CoapError UInt8) = .ok b := by
    intro i b hi'
    rw [Checked.index_eq_ok, hcoded, List.getElem?_append_left
      (List.getElem?_eq_some_iff.mp hi').1, hi']
  rw [parse, coapHeaderLen, if_neg (by omega), Checked.bind_of_eq_ok _ (hb 0 b0 rfl)]
  dsimp only
  rw [hv, htkl, if_neg (by simp), if_neg (by omega), Checked.bind_of_eq_ok _ (hb 1 code rfl),
    Checked.bind_of_eq_ok _ (hb 2 hi rfl), Checked.bind_of_eq_ok _ (hb 3 lo rfl), if_neg (by omega),
    Checked.bind_of_eq_ok _ (Checked.slice_of_drop (by omega) hdrop),
    Checked.bind_of_eq_ok _ hoptions]
  dsimp only
  rw [if_pos (by omega), hstart, Checked.bind_of_eq_ok _ hpayload, ht, hword, UInt16.ofNat_toNat]

/-- A packet is read from its own bytes and from no others. -/
theorem parse_eq_ok_iff : parse data = .ok p ↔ data = p.coded ∧ p.Wire := by
  constructor
  · exact parse_sound
  · rintro ⟨rfl, h⟩
    exact parse_complete h

end CoapPacket

/-! ### What the encoder writes -/

/-- The step from each option number to the next and the length of each value are below 269. -/
def Short : ℕ → List CoapOption → Prop
  | _, [] => True
  | last, opt :: rest => opt.number.toNat - last < 269 ∧ opt.value.length < 269 ∧
    Short opt.number.toNat rest

theorem encodeNibble_of_lt {v : ℕ} (h : v < 269) :
    (encodeNibble v).1 = nibbleOf v ∧ (encodeNibble v).2.toList = extensionOf v := by
  unfold encodeNibble nibbleOf extensionOf
  by_cases hv : v < 13
  · simp [hv]
  · simp [hv, h]

/-- From 269 on the encoder writes one byte where the decoder reads two. -/
theorem length_encodeNibble (v : ℕ) :
    (encodeNibble v).2.toList.length + (if v < 269 then 0 else 1) = (extensionOf v).length := by
  unfold encodeNibble extensionOf
  by_cases hv : v < 13
  · simp [hv, show v < 269 by omega]
  · by_cases hv' : v < 269 <;> simp [hv, hv', toBeBytes16]

theorem serializeOptions_eq_of_short {number : UInt16} {options : List CoapOption}
    (h : Short number.toNat options) :
    serializeOptions number options = codedOptions number.toNat options := by
  induction options generalizing number with
  | nil => rfl
  | cons opt rest ih =>
    obtain ⟨hd, hl, hrest⟩ := h
    obtain ⟨hdn, hde⟩ := encodeNibble_of_lt hd
    obtain ⟨hln, hle⟩ := encodeNibble_of_lt hl
    simp [serializeOptions, codedOptions, hdn, hde, hln, hle, ih hrest]

theorem length_serializeOptions (number : UInt16) (options : List CoapOption) :
    (serializeOptions number options).length ≤ (codedOptions number.toNat options).length ∧
      ((serializeOptions number options).length = (codedOptions number.toNat options).length →
        Short number.toNat options) := by
  induction options generalizing number with
  | nil => exact ⟨le_rfl, fun _ => trivial⟩
  | cons opt rest ih =>
    obtain ⟨hle, hshort⟩ := ih opt.number
    have hd := length_encodeNibble (opt.number.toNat - number.toNat)
    have hl := length_encodeNibble opt.value.length
    simp only [serializeOptions, codedOptions, Short, List.length_cons, List.length_append,
      List.length_nil]
    constructor
    · split_ifs at hd hl <;> omega
    · intro heq
      refine ⟨?_, ?_, hshort ?_⟩
      · by_contra hlong
        rw [if_neg hlong] at hd
        split_ifs at hl <;> omega
      · by_contra hlong
        rw [if_neg hlong] at hl
        split_ifs at hd <;> omega
      · split_ifs at hd hl <;> omega

namespace CoapPacket

variable {p : CoapPacket}

theorem serialize_eq_coded_iff : p.serialize = p.coded ↔ Short 0 p.options := by
  constructor
  · intro h
    have hlen := congrArg List.length h
    simp only [serialize, coded, List.length_append] at hlen
    refine (length_serializeOptions 0 p.options).2 ?_
    change (serializeOptions 0 p.options).length = (codedOptions 0 p.options).length
    omega
  · intro h
    rw [serialize, coded, @serializeOptions_eq_of_short 0 p.options h]
    rfl

theorem parse_serialize_iff : parse p.serialize = .ok p ↔ p.Wire ∧ Short 0 p.options := by
  rw [parse_eq_ok_iff, serialize_eq_coded_iff, and_comm]

theorem ordered_of_sorted {options : List CoapOption} {last : ℕ}
    (hsorted : options.Pairwise fun a b => a.number ≤ b.number)
    (hlast : ∀ o ∈ options, last ≤ o.number.toNat)
    (hvalues : ∀ o ∈ options, o.value.length ≤ 65804) : Ordered last options := by
  induction options generalizing last with
  | nil => trivial
  | cons opt rest ih =>
    obtain ⟨hfirst, hrest⟩ := List.pairwise_cons.mp hsorted
    exact ⟨hlast opt List.mem_cons_self, hvalues opt List.mem_cons_self,
      ih hrest (fun o ho => UInt16.le_iff_toNat_le.mp (hfirst o ho))
        fun o ho => hvalues o (List.mem_cons_of_mem opt ho)⟩

/-- A packet comes back exactly when its type has two bits and its options are short; a packet that
was read, when its options are short; and the parser reads nothing out of bounds. -/
theorem coap_round_trip (hversion : p.version = 1) (htoken : p.token.length ≤ 8)
    (hsorted : p.options.Pairwise fun a b => a.number ≤ b.number)
    (hvalues : ∀ o ∈ p.options, o.value.length ≤ 65804) :
    (parse p.serialize = .ok p ↔ p.msgType ≤ 3 ∧ Short 0 p.options) ∧
      (∀ data q, parse data = .ok q → (parse q.serialize = .ok q ↔ Short 0 q.options)) ∧
      ∀ data, Safe (parse data) := by
  refine ⟨?_, ?_, safe_parse⟩
  · rw [parse_serialize_iff]
    constructor
    · rintro ⟨hwire, hshort⟩
      exact ⟨hwire.msgType, hshort⟩
    · rintro ⟨htype, hshort⟩
      exact ⟨⟨hversion, htype, htoken, ordered_of_sorted hsorted
        (fun _ _ => Nat.zero_le _) hvalues⟩, hshort⟩
  · intro data q h
    rw [parse_serialize_iff]
    exact and_iff_right (parse_sound h).2

/-- A request for a path, with a payload. -/
theorem coap_round_trip_get :
    let p : CoapPacket := ⟨1, 0, 1, 0x1337, [0xAA], [⟨11, [97, 98]⟩, ⟨12, []⟩], [1]⟩
    parse p.serialize = .ok p :=
  ((@coap_round_trip ⟨1, 0, 1, 0x1337, [0xAA], [⟨11, [97, 98]⟩, ⟨12, []⟩], [1]⟩ rfl
    (by decide) (by decide) (by decide)).1).mpr ⟨by decide, by simp only [Short]; decide⟩

/-- An option number from 269 on does not come back. -/
theorem long_delta_lost :
    ¬ ∀ p : CoapPacket, p.version = 1 → p.token.length ≤ 8 → p.msgType ≤ 3 →
      (p.options.Pairwise fun a b => a.number ≤ b.number) →
      (∀ o ∈ p.options, o.value.length ≤ 65804) →
      parse p.serialize = .ok p := by
  intro h
  have hparse := h ⟨1, 0, 1, 0x1337, [], [⟨300, []⟩], []⟩ rfl (by decide) (by decide)
    (by decide) (by decide)
  exact absurd (parse_serialize_iff.mp hparse).2.1 (by decide)

end CoapPacket

end ToyTcpip.Coap
